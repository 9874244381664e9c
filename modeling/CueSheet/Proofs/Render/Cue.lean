import CueSheet.Proofs.Cue.Accepted
import CueSheet.Proofs.Line
import CueSheet.Proofs.Render.Survive
import CueSheet.Proofs.Text.Pieces
import CueSheet.Proofs.Value.Same

/-!
# A written cue is read back

A cue is written token by token. A parameter that survives is read back under its own key, a stored
time as the same quantity and any other value as the same value (`Render.exists_isReadBack`), a
written argument is read back as itself, and the head is told from the other tokens as before
(`CueBody.head_headTokens`). So a cue that survives is read back without a report, up to the kind of
the numbers of its stored times (`Render.read_cue`).
-/

namespace CueSheet

open Text (isBlank lower)

/-- A parameter that is read has the key of another one and its value, or the same time. -/
structure ReadsBack (param read : String × Value) : Prop where
  /-- The key is the same. -/
  key : read.1 = param.1
  /-- A stored time is the same quantity, as a real number of at least zero. -/
  time : param.1 ∈ Validation.beatKeys → ∃ x q, param.2 = .number x ∧ x.isNumeric = true ∧
    x.toRat? = some q ∧ 0 ≤ q ∧ read.2 = .number (.real (.finite q))
  /-- Any other value is the same value. -/
  value : param.1 ∉ Validation.beatKeys → read.2 = param.2

/-- A cue that is read is another one, but for the kind of the numbers of its stored times. -/
structure Cue.ReadsBack (cue read : Cue) : Prop where
  /-- The name is the same. -/
  name : read.name = cue.name
  /-- The category is the same. -/
  category : read.category = cue.category
  /-- The parameters are read back in order. -/
  params : List.Forall₂ CueSheet.ReadsBack cue.params read.params
  /-- The arguments are the same. -/
  args : read.args = cue.args

/-! ## Tokens with a key -/

namespace CueBody

variable {key raw : List Char}

/-- A key, an equals sign and a raw value make up a parameter with that key and that raw value. -/
theorem parameter_token (hkey : IsCueKey key) (raw : List Char) :
    isParameter (key ++ '=' :: raw) = true ∧ keyOf (key ++ '=' :: raw) = String.ofList key ∧
      rawOf (key ++ '=' :: raw) = raw := by
  -- A key has no equals sign, so the first one of the token is the one behind the key.
  have hkeep : ∀ c ∈ key, (c != '=') = true := fun c hc => by simpa using (hkey.chars c hc).2
  have htake : (key ++ '=' :: raw).takeWhile (· != '=') = key := by
    rw [List.takeWhile_append_of_pos hkeep, List.takeWhile_cons_of_neg (by decide),
      List.append_nil]
  have hdrop : (key ++ '=' :: raw).dropWhile (· != '=') = '=' :: raw := by
    rw [List.dropWhile_append_of_pos hkeep, List.dropWhile_cons_of_neg (by decide)]
  have hhead : (key ++ '=' :: raw).head? ≠ some '"' := by
    rw [List.head?_append_of_ne_nil _ hkey.ne_nil]
    exact hkey.head
  refine ⟨?_, ?_, ?_⟩
  · rw [isParameter, htake, hkey.low, hasEquals, bne_iff_ne.2 hhead]
    simp [hkey.ne_nil]
  · rw [keyOf, htake, hkey.low]
  · rw [rawOf, hdrop, List.drop_one, List.tail_cons]

/-- A key that opens no quote and a text with its quotes in pairs make up a whole token. -/
theorem isWhole_token (hkey : IsCueKey key) (hlone : Token.hasLoneQuote key = false)
    (hraw : Token.readOver false raw = some false) : Token.IsWhole (key ++ '=' :: raw) := by
  -- The key ends outside of quotes, since it has its quotes in pairs.
  obtain ⟨isInside, hclosed⟩ := hkey.closed
  have hcount := Token.count_of_readOver hclosed
  have heven : key.count '"' % 2 ≠ 1 := by simpa [Token.hasLoneQuote] using hlone
  cases isInside with
  | true => exact absurd hcount heven
  | false =>
    refine ⟨by simp, ?_⟩
    rw [Token.readOver_append, hclosed, Option.bind_some, Token.readOver, if_neg (by decide),
      if_neg (by decide), hraw]

/-- Tokens that are parameters with different keys are stored in order. -/
theorem foldlM_add_params {ρ : Rounding} {bpm beatsPerBar : Value} {tokens : List (List Char)}
    {stored : List (String × Value)} {details : Details}
    (h : List.Forall₂ (fun token param => isParameter token = true ∧
      readParameter ρ bpm beatsPerBar (keyOf token) (rawOf token) = .ok param) tokens stored)
    (hkeys : ((details.params ++ stored).map (·.1)).Nodup) :
    tokens.foldlM (Details.add ρ bpm beatsPerBar) details =
      .ok { details with params := details.params ++ stored } := by
  induction h generalizing details with
  | nil => rw [List.append_nil]; rfl
  | @cons token param tokens stored hfirst hrest ih =>
    obtain ⟨hparameter, hread⟩ := hfirst
    -- No key is stored twice, so nothing is replaced.
    have hnew : details.params.lookup param.1 = none := by
      rw [← Option.not_isSome_iff_eq_none, lookup_isSome_iff]
      rw [List.map_append, List.map_cons, List.nodup_append] at hkeys
      exact fun hmem => hkeys.2.2 _ hmem _ List.mem_cons_self rfl
    rw [List.foldlM_cons, Details.add_of_parameter hparameter, hread, ok_bind, ok_bind,
      Details.store, hnew, Option.isSome_none, if_neg Bool.false_ne_true,
      ih (by simpa using hkeys)]
    simp

/-- Tokens that are no parameters and do not look like ones without a key are arguments in order. -/
theorem foldlM_add_args (ρ : Rounding) (bpm beatsPerBar : Value) {tokens : List (List Char)}
    (details : Details)
    (h : ∀ token ∈ tokens, isParameter token = false ∧ keyless? token = none) :
    tokens.foldlM (Details.add ρ bpm beatsPerBar) details =
      .ok { details with args := details.args ++ tokens.map word } := by
  induction tokens generalizing details with
  | nil => rw [List.map_nil, List.append_nil]; rfl
  | cons token tokens ih =>
    obtain ⟨hargument, hkeyless⟩ := h token List.mem_cons_self
    rw [List.foldlM_cons, Details.add_of_argument hargument, ok_bind,
      ih _ fun token htoken => h token (List.mem_cons_of_mem _ htoken)]
    simp [Details.addArgument, hkeyless]

/-- Whole tokens with spaces between them are read as the cue of their head and of what the other
tokens say: parameters first, and then arguments. Nothing is reported. -/
theorem read_intercalate {ρ : Rounding} {bpm beatsPerBar : Value} {name : String}
    {category : Option String} {tokens params args : List (List Char)} {stored : Params}
    (hwhole : ∀ token ∈ tokens, Token.IsWhole token)
    (hhead : head tokens = ⟨category, name, params ++ args⟩)
    (hparams : List.Forall₂ (fun token param => isParameter token = true ∧
      readParameter ρ bpm beatsPerBar (keyOf token) (rawOf token) = .ok param) params stored)
    (hkeys : (stored.map (·.1)).Nodup)
    (hargs : ∀ token ∈ args, isParameter token = false ∧ keyless? token = none) :
    CueBody.read ρ bpm beatsPerBar ([' '].intercalate tokens) =
      .ok ⟨⟨name, category, stored, args.map word⟩, []⟩ := by
  have hpaired : Token.hasLoneQuote ([' '].intercalate tokens) = false := by
    simpa [Token.hasLoneQuote] using Token.even_count_intercalate hwhole
  unfold CueBody.read
  rw [Token.split_intercalate hwhole, hhead]
  dsimp only
  rw [List.foldlM_append, foldlM_add_params hparams (by simpa [Details.empty] using hkeys), ok_bind,
    Details.empty, List.nil_append, foldlM_add_args _ _ _ _ hargs, ok_bind, hpaired]
  rfl

end CueBody

/-! ## Parameters -/

/-- The keys that stored times are written under are keys as cues hold them, and open no quote. -/
theorem isCueKey_writtenAs {key written : String} (h : (key, written) ∈ TimingKey.writtenAs) :
    IsCueKey written.toList ∧ Token.hasLoneQuote written.toList = false := by
  -- The table is finite, and each of its entries is checked by evaluation.
  have hall : (TimingKey.writtenAs.all fun entry =>
      entry.2.toList != [] && entry.2.toList.head? != some '"' &&
        lower entry.2.toList == entry.2.toList &&
        Token.readOver false entry.2.toList == some false &&
        !Token.hasLoneQuote entry.2.toList && entry.2.toList.all fun c =>
          c != '<' && c != '>' && c != '\n' && c != '=') = true := by
    decide +kernel
  have hentry := List.all_eq_true.1 hall _ h
  simp only [Bool.and_eq_true, bne_iff_ne, beq_iff_eq, Bool.not_eq_true', List.all_eq_true]
    at hentry
  obtain ⟨⟨⟨⟨⟨hne, hhead⟩, hlow⟩, hclosed⟩, hlone⟩, hchars⟩ := hentry
  refine ⟨⟨hne, hhead, hlow, ⟨false, hclosed⟩, fun c hc => ?_⟩, hlone⟩
  obtain ⟨⟨⟨hopen, hclose⟩, hfeed⟩, hequals⟩ := hchars c hc
  exact ⟨⟨hopen, hclose, hfeed⟩, hequals⟩

/-- The characters of written numbers can stand in the body of a cue. -/
theorem isBodyChar_of_isNumeralChar {c : Char} (h : isNumeralChar c = true) : IsBodyChar c := by
  refine ⟨?_, ?_, ?_⟩ <;>
  · rintro rfl
    exact absurd h (by decide)

namespace Number

variable {x : Number} {q : ℚ}

/-- A stored time that survives is one of binary64. -/
theorem binary64_of_survives (hplain : x.IsPlain) (hsurvives : Value.SurvivesAsTime (.number x))
    (hnumeric : x.isNumeric = true) (hx : x.toRat? = some q) (hq : 0 ≤ q) :
    Rounding.binary64 q = .finite q := by
  cases x with
  | bool => cases hnumeric
  | int n =>
    obtain rfl := Option.some.inj hx
    exact (hsurvives _ rfl).2 n rfl
  | real y =>
    obtain rfl | ⟨rfl, rfl⟩ := Extended.eq_finite_or_negZero hx
    · exact binary64_of_isBinary64 hq (hplain.binary64 _ rfl)
    · exact binary64_of_isBinary64 le_rfl (Extended.isBinary64_zero false)

end Number

namespace Render

/-- A text that is a key, an equals sign and a raw value is a whole token and a parameter. -/
theorem parameter_facts {key w : String} {raw : List Char}
    (hw : w.toList = key.toList ++ '=' :: raw) (hkey : IsCueKey key.toList)
    (hlone : Token.hasLoneQuote key.toList = false)
    (hclosed : Token.readOver false raw = some false) (hraw : ∀ c ∈ raw, IsBodyChar c) :
    Token.IsWhole w.toList ∧ CueBody.isParameter w.toList = true ∧
      (∀ c ∈ w.toList, IsBodyChar c) ∧ CueBody.keyOf w.toList = key ∧
      CueBody.rawOf w.toList = raw := by
  obtain ⟨hparameter, hkeyOf, hrawOf⟩ := CueBody.parameter_token hkey raw
  rw [hw]
  refine ⟨CueBody.isWhole_token hkey hlone hclosed, hparameter, ?_, ?_, hrawOf⟩
  · rw [List.forall_mem_append, List.forall_mem_cons]
    exact ⟨fun c hc => (hkey.chars c hc).1, ⟨by decide, by decide, by decide⟩, hraw⟩
  · rw [hkeyOf, String.ofList_toList]

/-- The characters of a written value can stand in the body of a cue. -/
theorem isBodyChar_of_mem_value {v : Value} {w : String} (hv : v.IsWritten)
    (htext : ∀ s, v = .text s → IsCueText s.toList) (h : value v = .ok w) :
    ∀ c ∈ w.toList, IsBodyChar c := by
  intro c hc
  cases v with
  | null | list | record => exact hv.elim
  | text s =>
    rcases mem_word hv.1 h hc with hc | rfl
    · exact (htext s rfl c hc).2
    · exact ⟨by decide, by decide, by decide⟩
  | number x =>
    cases x with
    | bool b =>
      obtain rfl := Except.ok.inj h
      have hall : ∀ c ∈ (if b = true then "true" else "false").toList, isNumeralChar c = true := by
        cases b <;> exact List.all_eq_true.1 (by decide)
      exact isBodyChar_of_isNumeralChar (hall c hc)
    | int | real =>
      exact isBodyChar_of_isNumeralChar
        (Number.isNumeralChar_of_mem_write (shown_eq_ok_iff.1 h) rfl hc)

/-- A value that is accepted and no time is one that can stand in a cue that is written. -/
theorem isWritten_of_isAcceptedParam {param : String × Value} (h : IsAcceptedParam param) :
    param.2.IsWritten := by
  obtain ⟨key, v⟩ := param
  cases v with
  | null | list | record => exact h.plain
  | number x => exact ⟨h.plain, h.finite x rfl⟩
  | text s =>
    have htext := h.text s rfl
    exact ⟨fun hmem => (htext _ hmem).1 rfl, fun hmem => (htext _ hmem).2.2.2 rfl⟩

variable {param : String × Value} {bpm : Number} {beatsPerBar : Value}

/-- A token that a parameter is read back from. -/
structure IsReadBack (bpm beatsPerBar : Value) (param : String × Value) (w : String) : Prop where
  /-- The token is what is written. -/
  written : parameter param = .ok w
  /-- It is one token, and a parameter. -/
  whole : Token.IsWhole w.toList
  /-- It is told from an argument. -/
  isParameter : CueBody.isParameter w.toList = true
  /-- It can stand in the body of a cue. -/
  chars : ∀ c ∈ w.toList, IsBodyChar c
  /-- What is read is the parameter again. -/
  back : ∃ read, readParameter .binary64 bpm beatsPerBar (CueBody.keyOf w.toList)
    (CueBody.rawOf w.toList) = .ok read ∧ ReadsBack param read

/-- A stored time that survives is read back. -/
theorem isReadBack_time (beatsPerBar : Value) (h : IsAcceptedParam param)
    (hsurvives : param.2.SurvivesAsTime) (hkey : param.1 ∈ Validation.beatKeys)
    (hbpm : bpm.isPositive = true) :
    ∃ w, IsReadBack (.number bpm) beatsPerBar param w := by
  obtain ⟨key, v⟩ := param
  obtain ⟨x, q, rfl, hnumeric, hx, hq⟩ := h.time hkey
  obtain ⟨text, hwrite⟩ := Number.IsPlain.exists_write_normalize h.plain
  have hletter := Number.not_mem_of_isScientific (Number.isNumeric_normalize hnumeric)
    (hsurvives x rfl).1 hwrite
  -- The key that the time is written under is none of those that it is stored under.
  obtain ⟨written, hlookup⟩ : ∃ written, TimingKey.writtenAs.lookup key = some written :=
    Option.isSome_iff_exists.1 (lookup_isSome_iff.2 hkey)
  have hmem := mem_of_lookup hlookup
  obtain ⟨hwritten, hlone⟩ := isCueKey_writtenAs hmem
  have hchars := isNumeralChar_of_beats (Number.isNumeric_normalize hnumeric) hwrite
  have hclosed : Token.readOver false (text ++ "beats".toList) = some false :=
    Token.readOver_bare _ fun c hc =>
      of_isNumeralChar (P := fun c => c ≠ '"' ∧ isBlank c = false) (by decide +kernel) (hchars c hc)
  have hw : (written ++ "=" ++ String.ofList text ++ "beats").toList =
      written.toList ++ '=' :: (text ++ "beats".toList) := by
    simp
  obtain ⟨hwhole, hparameter, hbody, hkeyOf, hrawOf⟩ :=
    parameter_facts hw hwritten hlone hclosed fun c hc => isBodyChar_of_isNumeralChar (hchars c hc)
  refine ⟨written ++ "=" ++ String.ofList text ++ "beats", ?_, hwhole, hparameter, hbody,
    (key, .number (.real (.finite q))), ?_,
    ⟨rfl, fun _ => ⟨x, q, rfl, hnumeric, hx, hq, rfl⟩, fun hnot => absurd hkey hnot⟩⟩
  · unfold parameter
    rw [hlookup]
    dsimp only
    rw [beats, number_eq, Number.shown, hwrite]
    simp [String.append_assoc]
  · rw [hkeyOf, hrawOf, readParameter_beats hmem hnumeric h.plain hx hq hwrite hbpm,
      if_neg hletter, Number.binary64_of_survives h.plain hsurvives hnumeric hx hq]

/-- A value that is no time and survives is read back. -/
theorem isReadBack_value (bpm : Number) (beatsPerBar : Value) (h : IsAcceptedParam param)
    (hsurvives : param.2.SurvivesAsIs)
    (hlone : Token.hasLoneQuote param.1.toList = false) (hkey : param.1 ∉ Validation.beatKeys) :
    ∃ w, IsReadBack (.number bpm) beatsPerBar param w := by
  have hwritten := isWritten_of_isAcceptedParam h
  obtain ⟨key, v⟩ := param
  have hvalue : ¬Fails (value v) := (fails_value_iff hwritten).not.2 hsurvives.1
  obtain ⟨raw, hraw⟩ := not_fails_iff.1 hvalue
  have hlookup : TimingKey.writtenAs.lookup key = none := by
    rw [← Option.not_isSome_iff_eq_none, lookup_isSome_iff]
    exact hkey
  have hw : (key ++ "=" ++ raw).toList = key.toList ++ '=' :: raw.toList := by simp
  obtain ⟨hwhole, hparameter, hbody, hkeyOf, hrawOf⟩ :=
    parameter_facts hw h.key hlone (readOver_value hwritten hraw)
      (isBodyChar_of_mem_value hwritten h.text hraw)
  refine ⟨key ++ "=" ++ raw, ?_, hwhole, hparameter, hbody, (key, v), ?_,
    ⟨rfl, fun hmem => absurd hmem hkey, fun _ => rfl⟩⟩
  · unfold parameter
    rw [hlookup]
    dsimp only
    rw [hraw]
    rfl
  · -- A number next to a power of ten would be read as a text, and any other value is read as it is.
    have hreread : v.reread = v := by
      cases v with
      | null | text | list | record => rfl
      | number x =>
        cases x with
        | int | bool => rfl
        | real y =>
          have hletter : 'e' ∉ y.write := by simpa [Number.isScientific] using hsurvives.2 _ rfl
          rw [Value.reread, if_neg hletter]
    have htiming : timing? key raw.toList = none := by
      unfold timing?
      rw [h.untimed]
    rw [hkeyOf, hrawOf, readParameter, htiming, ofRaw_value hwritten hraw, hreread]
    rfl

/-- A parameter that survives is read back. -/
theorem exists_isReadBack (beatsPerBar : Value) (h : IsAcceptedParam param)
    (hsurvives : SurvivesParam param) (hlone : Token.hasLoneQuote param.1.toList = false)
    (hbpm : bpm.isPositive = true) :
    ∃ w, IsReadBack (.number bpm) beatsPerBar param w := by
  unfold SurvivesParam at hsurvives
  split_ifs at hsurvives with hkey
  · exact isReadBack_time beatsPerBar h hsurvives hkey hbpm
  · exact isReadBack_value bpm beatsPerBar h hsurvives hlone hkey

/-- The tokens that parameters are written as are read back as parameters, in order. -/
theorem mapM_parameter_eq_ok (beatsPerBar : Value) {params : Params}
    (hparams : ∀ param ∈ params, IsAcceptedParam param)
    (hsurvive : ∀ param ∈ params, SurvivesParam param)
    (hlone : ∀ param ∈ params, Token.hasLoneQuote param.1.toList = false)
    (hbpm : bpm.isPositive = true) :
    ∃ ws, params.mapM parameter = .ok ws ∧
      List.Forall₂ (IsReadBack (.number bpm) beatsPerBar) params ws := by
  refine exists_mapM_of_forall fun param hparam => ?_
  obtain ⟨w, hw⟩ := exists_isReadBack beatsPerBar (hparams param hparam) (hsurvive param hparam)
    (hlone param hparam) hbpm
  exact ⟨w, hw.written, hw⟩

/-- What arguments are written as are whole tokens that are read as the arguments, in order. -/
theorem mapM_word_eq_ok {args : List String} (hargs : ∀ arg ∈ args, IsCueText arg.toList)
    (hwritable : ∀ arg ∈ args, ¬IsOverlong arg.toList) :
    ∃ ws, args.mapM word = .ok ws ∧ List.Forall₂ (fun arg w => word arg = .ok w) args ws := by
  have hnot : ¬Fails (args.mapM word) := by
    rw [fails_mapM_iff]
    rintro ⟨arg, harg, hfails⟩
    exact hwritable arg harg
      ((fails_word_iff fun hmem => (hargs arg harg _ hmem).2.2.2 rfl).1 hfails)
  obtain ⟨ws, hws⟩ := not_fails_iff.1 hnot
  exact ⟨ws, hws, mapM_eq_ok_iff.1 hws⟩

end Render

/-! ## The head of a cue -/

/-- A character of names is none that means something in a cue. -/
theorem of_isNameChar {c : Char} (h : Validation.isNameChar c = true) :
    c ≠ '"' ∧ c ≠ '=' ∧ isBlank c = false ∧ IsBodyChar c := by
  have hascii : c ≠ '"' ∧ c ≠ '=' := by
    refine ⟨?_, ?_⟩ <;>
    · rintro rfl
      exact absurd h (by decide)
  have hbody : IsBodyChar c := by
    refine ⟨?_, ?_, ?_⟩ <;>
    · rintro rfl
      exact absurd h (by decide)
  refine ⟨hascii.1, hascii.2, ?_, hbody⟩
  rcases Bool.or_eq_true_iff.1 h with h | h
  · rcases Bool.or_eq_true_iff.1 h with h | h
    · rcases Bool.or_eq_true_iff.1 h with h | h
      · exact of_isNumeralChar (P := fun c => isBlank c = false) (by decide +kernel)
          (show isNumeralChar c = true by simp [isNumeralChar, h])
      · rw [beq_iff_eq.1 h]
        decide
    · rw [beq_iff_eq.1 h]
      decide
  · rw [beq_iff_eq.1 h]
    decide

/-- A category word in upper case is a whole token that is read as the category word. -/
theorem of_mem_categories {category : String} (h : category ∈ categories) :
    CueBody.hasEquals (Text.uppered category).toList = false ∧
      isCategory (Text.uppered category) = true ∧
      Text.lowered (Text.uppered category) = category ∧ Token.IsWhole (Text.uppered category).toList ∧
      ∀ c ∈ (Text.uppered category).toList, IsBodyChar c := by
  have hall : (categories.all fun category =>
      !CueBody.hasEquals (Text.uppered category).toList && isCategory (Text.uppered category) &&
        Text.lowered (Text.uppered category) == category &&
        (Text.uppered category).toList != [] &&
        Token.readOver false (Text.uppered category).toList == some false &&
        (Text.uppered category).toList.all isNumeralChar) = true := by
    decide +kernel
  have hcategory := List.all_eq_true.1 hall _ h
  simp only [Bool.and_eq_true, bne_iff_ne, beq_iff_eq, Bool.not_eq_true', List.all_eq_true]
    at hcategory
  obtain ⟨⟨⟨⟨⟨hequals, hword⟩, hlow⟩, hne⟩, hclosed⟩, hchars⟩ := hcategory
  exact ⟨hequals, hword, hlow, ⟨hne, hclosed⟩, fun c hc => isBodyChar_of_isNumeralChar (hchars c hc)⟩

/-- The tokens that the head of a cue is written as. -/
def Cue.headTokens (cue : Cue) : List (List Char) :=
  (cue.category.toList.map fun category => (Text.uppered category).toList) ++ [cue.name.toList]

/-- The name of an accepted cue is a whole token without an equals sign, and its own word. -/
theorem Cue.IsAccepted.name_token {cue : Cue} (h : cue.IsAccepted) :
    Token.IsWhole cue.name.toList ∧ CueBody.hasEquals cue.name.toList = false ∧
      CueBody.word cue.name.toList = cue.name := by
  refine ⟨⟨h.name_ne_nil, Token.readOver_bare _ fun c hc => ?_⟩, ?_, ?_⟩
  · obtain ⟨hquote, -, hblank, -⟩ := of_isNameChar (h.name c hc)
    exact ⟨hquote, hblank⟩
  · rw [CueBody.hasEquals, List.contains_eq_mem, decide_eq_false_iff_not]
    exact fun hmem => (of_isNameChar (h.name _ hmem)).2.1 rfl
  · have hsame : Token.unquoted cue.name.toList = cue.name.toList :=
      List.filter_eq_self.2 fun c hc => by simpa using (of_isNameChar (h.name c hc)).1
    rw [CueBody.word, hsame, String.ofList_toList]

/-- The tokens of the head of an accepted cue are whole. -/
theorem Cue.IsAccepted.headTokens {cue : Cue} (h : cue.IsAccepted) :
    ∀ token ∈ cue.headTokens, Token.IsWhole token ∧ ∀ c ∈ token, IsBodyChar c := by
  intro token htoken
  rcases List.mem_append.1 htoken with htoken | htoken
  · obtain ⟨category, hcategory, rfl⟩ := List.mem_map.1 htoken
    obtain ⟨-, -, -, hwhole, hchars⟩ :=
      of_mem_categories (h.category category (Option.mem_toList.1 hcategory))
    exact ⟨hwhole, hchars⟩
  · rw [List.mem_singleton.1 htoken]
    exact ⟨h.name_token.1, fun c hc => (of_isNameChar (h.name c hc)).2.2.2⟩

/-- The head of an accepted cue is told from the tokens behind it, if one of these with an equals sign
stands behind a name that is a category word. -/
theorem CueBody.head_headTokens {cue : Cue} (h : cue.IsAccepted) {rest : List (List Char)}
    (hrest : cue.category = none → isCategory cue.name = true →
      ∃ token ∈ rest.head?, hasEquals token = true) :
    head (cue.headTokens ++ rest) = ⟨cue.category, cue.name, rest⟩ := by
  obtain ⟨-, hequals, hword⟩ := h.name_token
  unfold Cue.headTokens
  cases hcategory : cue.category with
  | some category =>
    obtain ⟨hequals', hword', hlow, -⟩ := of_mem_categories (h.category category hcategory)
    show head ((Text.uppered category).toList :: cue.name.toList :: rest) = _
    rw [Text.lowered] at hlow
    simp only [head, hequals', String.ofList_toList, hword', hequals, hword, hlow, if_true,
      Bool.false_eq_true, if_false]
  | none =>
    show head (cue.name.toList :: rest) = _
    -- A name that could be a category is told from one by the equals sign behind it.
    cases hname : isCategory cue.name with
    | false =>
      simp only [head, hequals, String.ofList_toList, hname, hword, Bool.false_eq_true, if_false]
    | true =>
      obtain ⟨token, htoken, hparameter⟩ := hrest hcategory hname
      obtain ⟨others, rfl⟩ : ∃ others, rest = token :: others := by
        cases rest with
        | nil => cases htoken
        | cons first others => exact ⟨others, by rw [Option.some.inj htoken]⟩
      simp only [head, hequals, String.ofList_toList, hname, hword, hparameter, if_true,
        Bool.false_eq_true, if_false]

/-! ## Whole cues -/

/-- A whole token has no blanks at its ends. -/
theorem Token.IsWhole.isStripped {token : List Char} (h : Token.IsWhole token) :
    Text.IsStripped token := by
  refine ⟨h.not_isBlank_head, fun c hc => ?_⟩
  have hclosed := h.closed
  rw [← List.dropLast_append_getLast? _ hc, Token.readOver_append] at hclosed
  obtain ⟨state, -, hlast⟩ := Option.bind_eq_some_iff.1 hclosed
  rw [Token.readOver] at hlast
  split_ifs at hlast with hquote hblank
  · rw [hquote]
    exact Token.isBlank_quote
  · obtain rfl := Option.some.inj hlast
    simpa using hblank

namespace Render

variable {cue : Cue} {bpm : Number} {beatsPerBar : Value}

/-- A text can stand between the brackets of a cue on a line of a document. -/
structure IsBody (body : List Char) : Prop where
  /-- It has no brackets and no line feeds. -/
  chars : ∀ c ∈ body, IsBodyChar c
  /-- It is not empty. -/
  ne_nil : body ≠ []
  /-- It has no blanks at its ends. -/
  stripped : Text.IsStripped body

/-- A body between angle brackets is a line with a cue of that body. -/
theorem IsBody.ofText_line {body : List Char} (h : IsBody body) :
    Line.ofText ('<' :: (body ++ ['>'])) = .cue body := by
  refine Line.ofText_cue ⟨fun c hc => ⟨(h.chars c hc).1, (h.chars c hc).2.1⟩, ?_⟩ h.stripped
  obtain ⟨first, rest, rfl⟩ := List.exists_cons_of_ne_nil h.ne_nil
  exact ⟨first, List.mem_cons_self, h.stripped.head first rfl⟩

/-- Whole tokens with spaces between them can stand between the brackets of a cue. -/
theorem isBody_intercalate {tokens : List (List Char)} (hne : tokens ≠ [])
    (h : ∀ token ∈ tokens, Token.IsWhole token ∧ ∀ c ∈ token, IsBodyChar c) :
    IsBody ([' '].intercalate tokens) := by
  refine ⟨fun c hc => ?_, ?_,
    Text.isStripped_intercalate fun token htoken => ⟨(h token htoken).1.ne_nil,
      (h token htoken).1.isStripped⟩⟩
  · rcases Text.mem_intercalate hc with hc | ⟨token, htoken, hc⟩
    · rw [List.mem_singleton.1 hc]
      exact ⟨by decide, by decide, by decide⟩
    · exact (h token htoken).2 c hc
  · obtain ⟨token, htoken⟩ := List.exists_mem_of_ne_nil _ hne
    obtain ⟨c, hc⟩ := List.exists_mem_of_ne_nil _ (h token htoken).1.ne_nil
    exact List.ne_nil_of_mem (Text.mem_intercalate_of_mem htoken hc)

/-- What a cue is written as, from what its parameters and arguments are written as. -/
theorem cue_eq_ok {params args : List String} (h : cue.IsAccepted)
    (hparams : cue.params.mapM parameter = .ok params) (hargs : cue.args.mapM word = .ok args)
    (hne : ∀ w ∈ params ++ args, w.toList ≠ []) :
    Render.cue cue = .ok (String.ofList ('<' :: ([' '].intercalate
      (cue.headTokens ++ (params ++ args).map String.toList) ++ ['>']))) := by
  have hkeep {ws : List String} (hws : ∀ w ∈ ws, w.toList ≠ []) : ws.filter (!·.isEmpty) = ws :=
    List.filter_eq_self.2 fun w hw => by
      simpa [String.isEmpty_iff, String.toList_eq_nil_iff] using hws w hw
  unfold Render.cue
  rw [hparams, ok_bind, hargs, ok_bind, pure_eq_ok_iff]
  cases hcategory : cue.category with
  | none =>
    dsimp only
    rw [List.append_assoc, List.filter_append, hkeep hne, List.filter_cons_of_neg (by decide),
      hkeep (by simpa using h.name_ne_nil), ← String.toList_inj]
    simp [Cue.headTokens, hcategory, String.toList_intercalate]
  | some category =>
    have hword := (of_mem_categories (h.category category hcategory)).2.2.2.1.ne_nil
    have hhead : ∀ w ∈ [Text.uppered category, cue.name], w.toList ≠ [] := by
      simpa [← String.toList_eq_nil_iff] using ⟨hword, h.name_ne_nil⟩
    dsimp only
    rw [List.append_assoc, List.filter_append, hkeep hne, hkeep hhead, ← String.toList_inj]
    simp [Cue.headTokens, hcategory, String.toList_intercalate]

/-- The token that stands behind the head of a cue that survives has an equals sign if the name is
one that could be a category. -/
theorem exists_hasEquals (hsurvives : cue.Survives) {params args : List String}
    (hparams : List.Forall₂ (IsReadBack (.number bpm) beatsPerBar) cue.params params)
    (hargs : List.Forall₂ (fun arg w => word arg = .ok w) cue.args args)
    (htexts : ∀ arg ∈ cue.args, IsCueText arg.toList) (hcategory : cue.category = none)
    (hname : isCategory cue.name = true) :
    ∃ token ∈ ((params ++ args).map String.toList).head?, CueBody.hasEquals token = true := by
  cases hlist : cue.params with
  | cons param rest =>
    rw [hlist] at hparams
    cases hparams with
    | cons hfirst _ =>
      -- The first parameter stands behind the head.
      have hparameter := hfirst.isParameter
      simp only [CueBody.isParameter, Bool.and_eq_true] at hparameter
      exact ⟨_, rfl, hparameter.1.2⟩
  | nil =>
    -- Without parameters the first argument does, and it has an equals sign of its own.
    obtain ⟨arg, harg, hequals⟩ := hsurvives.head hcategory hname hlist
    rw [hlist] at hparams
    cases hparams
    cases hlist' : cue.args with
    | nil =>
      rw [hlist'] at harg
      cases harg
    | cons first others =>
      have hquote : '"' ∉ arg.toList := fun hmem =>
        (htexts arg (List.mem_of_mem_head? harg) _ hmem).1 rfl
      rw [hlist'] at harg hargs
      obtain rfl := Option.some.inj harg
      cases hargs with
      | @cons _ w _ _ hfirst _ =>
        have hmem : '=' ∈ w.toList := by
          rw [← unquoted_word hquote hfirst] at hequals
          exact (List.mem_filter.1 hequals).1
        exact ⟨w.toList, rfl, by simpa [CueBody.hasEquals] using hmem⟩

/-- The parameters that tokens are read as are those that they are written from. -/
theorem exists_reads {params : Params} {ws : List String}
    (h : List.Forall₂ (IsReadBack (.number bpm) beatsPerBar) params ws) :
    ∃ reads, List.Forall₂ ReadsBack params reads ∧
      List.Forall₂ (fun token read => CueBody.isParameter token = true ∧
        readParameter .binary64 (.number bpm) beatsPerBar (CueBody.keyOf token)
          (CueBody.rawOf token) = .ok read) (ws.map String.toList) reads := by
  induction h with
  | nil => exact ⟨[], .nil, .nil⟩
  | cons hfirst _ ih =>
    obtain ⟨read, hread, hback⟩ := hfirst.back
    obtain ⟨reads, hbacks, hreads⟩ := ih
    exact ⟨read :: reads, .cons hback hbacks, .cons ⟨hfirst.isParameter, hread⟩ hreads⟩

/-- Parameters that are read back have the keys of those that they are written from. -/
theorem map_fst_eq {params reads : Params} (h : List.Forall₂ ReadsBack params reads) :
    reads.map (·.1) = params.map (·.1) := by
  induction h with
  | nil => rfl
  | cons hfirst _ ih => rw [List.map_cons, List.map_cons, hfirst.key, ih]

/-- Without their quotes written arguments are the arguments. -/
theorem map_word_eq {args ws : List String} (hquotes : ∀ arg ∈ args, '"' ∉ arg.toList)
    (h : List.Forall₂ (fun arg w => word arg = .ok w) args ws) :
    (ws.map String.toList).map CueBody.word = args := by
  induction h with
  | nil => rfl
  | @cons arg w args ws hfirst _ ih =>
    rw [List.forall_mem_cons] at hquotes
    rw [List.map_cons, List.map_cons, ih hquotes.2, CueBody.word, unquoted_word hquotes.1 hfirst,
      String.ofList_toList]

/-- Tokens that are read back as parameters are whole, and their characters may stand in a cue. -/
theorem forall_parameterTokens {params : Params} {ws : List String}
    (h : List.Forall₂ (IsReadBack (.number bpm) beatsPerBar) params ws) :
    ∀ w ∈ ws, Token.IsWhole w.toList ∧ ∀ c ∈ w.toList, IsBodyChar c := by
  intro w hw
  obtain ⟨param, -, hback⟩ := exists_of_mem_right h hw
  exact ⟨hback.whole, hback.chars⟩

/-- Written arguments are whole tokens, and their characters may stand in a cue. -/
theorem forall_argumentTokens {args ws : List String} (hquotes : ∀ arg ∈ args, '"' ∉ arg.toList)
    (hchars : ∀ arg ∈ args, ∀ c ∈ arg.toList, IsBodyChar c)
    (h : List.Forall₂ (fun arg w => word arg = .ok w) args ws) :
    ∀ w ∈ ws, Token.IsWhole w.toList ∧ ∀ c ∈ w.toList, IsBodyChar c := by
  intro w hw
  obtain ⟨arg, harg, hword⟩ := exists_of_mem_right h hw
  refine ⟨isWhole_word (hquotes arg harg) hword, fun c hc => ?_⟩
  rcases mem_word (hquotes arg harg) hword hc with hc | rfl
  · exact hchars arg harg c hc
  · exact ⟨by decide, by decide, by decide⟩

/-- Written arguments are read as arguments, and none of them looks like a parameter without a key. -/
theorem forall_isArgument {args ws : List String} (hquotes : ∀ arg ∈ args, '"' ∉ arg.toList)
    (h : List.Forall₂ (fun arg w => word arg = .ok w) args ws) :
    ∀ token ∈ ws.map String.toList,
      CueBody.isParameter token = false ∧ CueBody.keyless? token = none :=
  List.forall_mem_map.2 fun w hw => by
    obtain ⟨arg, harg, hword⟩ := exists_of_mem_right h hw
    exact isParameter_word (hquotes arg harg) hword

/-- A cue that is accepted and survives is written as one that is read back, and nothing is reported.
-/
theorem read_cue (beatsPerBar : Value) (h : cue.IsAccepted) (hsurvives : cue.Survives)
    (hbpm : bpm.isPositive = true) :
    ∃ body read, Render.cue cue = .ok (String.ofList ('<' :: (body ++ ['>']))) ∧ IsBody body ∧
      CueBody.read .binary64 (.number bpm) beatsPerBar body = .ok ⟨read, []⟩ ∧
      cue.ReadsBack read := by
  -- The parameters and the arguments can be written, each as one token.
  obtain ⟨params, hparams, hreads⟩ :=
    mapM_parameter_eq_ok beatsPerBar h.params hsurvives.params hsurvives.quotes hbpm
  obtain ⟨args, hargs, hwords⟩ := mapM_word_eq_ok h.args hsurvives.args
  have hquoteless : ∀ arg ∈ cue.args, '"' ∉ arg.toList := fun arg harg hmem =>
    (h.args arg harg _ hmem).1 rfl
  have hrest : ∀ w ∈ params ++ args, Token.IsWhole w.toList ∧ ∀ c ∈ w.toList, IsBodyChar c :=
    List.forall_mem_append.2 ⟨forall_parameterTokens hreads,
      forall_argumentTokens hquoteless (fun arg harg c hc => (h.args arg harg c hc).2) hwords⟩
  have htokens : ∀ token ∈ cue.headTokens ++ (params ++ args).map String.toList,
      Token.IsWhole token ∧ ∀ c ∈ token, IsBodyChar c :=
    List.forall_mem_append.2 ⟨h.headTokens, List.forall_mem_map.2 hrest⟩
  -- The tokens are told apart as head, parameters and arguments, and say what they were written from.
  obtain ⟨reads, hbacks, hstored⟩ := exists_reads hreads
  have hkeys : (reads.map (·.1)).Nodup := by
    rw [map_fst_eq hbacks]
    exact h.keys
  have hhead : CueBody.head (cue.headTokens ++ (params ++ args).map String.toList) =
      ⟨cue.category, cue.name, params.map String.toList ++ args.map String.toList⟩ := by
    rw [← List.map_append]
    exact CueBody.head_headTokens h (exists_hasEquals hsurvives hreads hwords h.args)
  refine ⟨_, _, cue_eq_ok h hparams hargs fun w hw => (hrest w hw).1.ne_nil,
    isBody_intercalate (by simp [Cue.headTokens]) htokens,
    CueBody.read_intercalate (fun token h => (htokens token h).1) hhead hstored hkeys
      (forall_isArgument hquoteless hwords), ?_⟩
  rw [map_word_eq hquoteless hwords]
  exact ⟨rfl, rfl, hbacks, rfl⟩

end Render

end CueSheet
