import CueSheet.Proofs.Cue.Parameter
import CueSheet.Proofs.Cue.Token
import CueSheet.Proofs.Text.Lower
import CueSheet.Proofs.Validation.Cue

/-!
# What an accepted cue holds

The keys, texts and arguments of a cue come from the tokens of its body, so they keep what the body
and its tokens have: no angle bracket and no line feed, quotes that hold the blanks of a key
together, no quotes in texts. The validator adds that the name is one, that numbers are finite, that
stored times are not below zero, and that no time is left under the key that it is written with.
`Cue.IsAccepted` states all of it, and `Cue.IsRead.isAccepted` derives it from the reading of a body
and a check without errors.
-/

namespace CueSheet

open Text (isBlank lower)

/-! ## Letter case and quotes -/

namespace Token

variable {isInside state : Bool} {xs : List Char}

/-- A text without quotes, and without blanks if it stands outside of quotes, ends where it starts.
-/
theorem readOver_same (h : ∀ c ∈ xs, c ≠ '"' ∧ (isInside = false → isBlank c = false)) :
    readOver isInside xs = some isInside := by
  cases isInside with
  | true => exact readOver_inside fun hmem => (h _ hmem).1 rfl
  | false => exact readOver_bare _ fun c hc => ⟨(h c hc).1, (h c hc).2 rfl⟩

/-- Letters are neither quotes nor blanks. -/
theorem ne_quote_of_isLetter {c : Char} (h : Text.Case.IsLetter c) : c ≠ '"' := by
  rintro rfl
  exact absurd h.1 (by decide)

/-- The lower-case form of a text has its quotes and blanks in the same places, as far as they matter
for tokens. -/
theorem readOver_lowerFrom {afterCased : Bool} (h : readOver isInside xs = some state) :
    readOver isInside (Text.Case.lowerFrom afterCased xs) = some state := by
  induction xs generalizing isInside afterCased with
  | nil => exact h
  | cons c xs ih =>
    rw [readOver] at h
    by_cases hquote : c = '"'
    · subst hquote
      rw [Text.Case.lowerFrom, readOver_append]
      exact ih h
    obtain ⟨letters, after, hlower, -, hletters⟩ := Text.exists_lowerFrom_cons afterCased c xs
    rw [hlower, readOver_append]
    rw [if_neg hquote] at h
    -- What one character becomes has no quote, and no blank unless the character is one.
    have hsame : ∀ d ∈ letters, d ≠ '"' ∧ (isInside = false → isBlank d = false) := by
      intro d hd
      rcases (hletters d hd).2 with rfl | hletter
      · refine ⟨hquote, fun hinside => ?_⟩
        by_contra hblank
        rw [hinside, Bool.not_eq_false _ |>.mp hblank] at h
        cases h
      · exact ⟨ne_quote_of_isLetter hletter, fun _ => hletter.2⟩
    rw [readOver_same hsame, Option.bind_some]
    split_ifs at h with hblank
    exact ih h

end Token

/-! ## What is read -/

/-- A character can stand in the body of a cue. -/
def IsBodyChar (c : Char) : Prop := c ≠ '<' ∧ c ≠ '>' ∧ c ≠ '\n'

instance (c : Char) : Decidable (IsBodyChar c) := inferInstanceAs (Decidable (_ ∧ _))

/-- A text is a key as cues hold it. -/
structure IsCueKey (key : List Char) : Prop where
  /-- It is not empty. -/
  ne_nil : key ≠ []
  /-- It does not start with a quote. -/
  head : key.head? ≠ some '"'
  /-- It is in lower case. -/
  low : lower key = key
  /-- Its blanks are in quotes. -/
  closed : ∃ isInside, Token.readOver false key = some isInside
  /-- It has characters of bodies and no equals sign. -/
  chars : ∀ c ∈ key, IsBodyChar c ∧ c ≠ '='

/-- A text is one that the body of a cue can give to a value or an argument. -/
def IsCueText (text : List Char) : Prop := ∀ c ∈ text, c ≠ '"' ∧ IsBodyChar c

instance (text : List Char) : Decidable (IsCueText text) := List.decidableBAll _ _

/-- A parameter is one that the body of a cue can say. -/
structure IsReadParam (param : String × Value) : Prop where
  /-- The key is one. -/
  key : IsCueKey param.1.toList
  /-- The value is a quantity or a text. -/
  plain : param.2.IsPlain
  /-- A text is one of the body. -/
  text : ∀ s, param.2 = .text s → IsCueText s.toList

/-- Letters can stand in the body of a cue and are no equals signs. -/
theorem isBodyChar_of_isLetter {c : Char} (h : Text.Case.IsLetter c) : IsBodyChar c ∧ c ≠ '=' := by
  refine ⟨⟨?_, ?_, ?_⟩, ?_⟩ <;>
  · rintro rfl
    exact absurd h.1 (by decide)

/-- The lower-case form of a text starts with a quote only if the text does. -/
theorem head?_lower {text : List Char} (h : (lower text).head? = some '"') :
    text.head? = some '"' := by
  cases text with
  | nil => cases h
  | cons c text =>
    by_cases hquote : c = '"'
    · rw [hquote]
      rfl
    obtain ⟨letters, after, hlower, hne, hletters⟩ := Text.exists_lowerFrom_cons false c text
    obtain ⟨d, rest, rfl⟩ := List.exists_cons_of_ne_nil hne
    rw [lower, hlower, List.cons_append, List.head?_cons, Option.some.injEq] at h
    rcases (hletters d List.mem_cons_self).2 with heq | hletter
    · exact absurd (heq.symm.trans h) hquote
    · exact absurd h (Token.ne_quote_of_isLetter hletter)

/-- The key of a token is a key as cues hold it. -/
theorem isCueKey_keyOf {token : List Char} (hwhole : Token.IsWhole token)
    (hchars : ∀ c ∈ token, IsBodyChar c) (h : CueBody.isParameter token = true) :
    IsCueKey (CueBody.keyOf token).toList := by
  simp only [CueBody.isParameter, Bool.and_eq_true, bne_iff_ne, Bool.not_eq_true',
    List.isEmpty_eq_false_iff] at h
  obtain ⟨⟨hhead, -⟩, hne⟩ := h
  rw [CueBody.keyOf, String.toList_ofList]
  have hsplit := List.takeWhile_append_dropWhile (p := (· != '=')) (l := token)
  have hkey : ∀ c ∈ token.takeWhile (· != '='), IsBodyChar c ∧ c ≠ '=' := fun c hc =>
    ⟨hchars c ((List.takeWhile_sublist _).subset hc), by simpa using List.mem_takeWhile_imp hc⟩
  generalize token.takeWhile (· != '=') = key at *
  -- Lower case changes letters only, so quotes and blanks stand where they did.
  refine ⟨hne, fun hquote => hhead ?_, Text.lower_lower key, ?_, fun c hc => ?_⟩
  · rw [← hsplit, List.head?_append, head?_lower hquote]
    rfl
  · have hclosed := hwhole.closed
    rw [← hsplit, Token.readOver_append] at hclosed
    obtain ⟨state, hstate, -⟩ := Option.bind_eq_some_iff.1 hclosed
    exact ⟨state, Token.readOver_lowerFrom hstate⟩
  · rcases Text.mem_lower hc with hc | hletter
    · exact hkey c hc
    · exact isBodyChar_of_isLetter hletter

/-- The keys under which times are stored are keys as cues hold them. -/
theorem isCueKey_stored (timingKey : TimingKey) : IsCueKey timingKey.stored.toList := by
  have hchars : (timingKey.stored.toList.all fun c =>
      c != '<' && c != '>' && c != '\n' && c != '=') = true := by
    cases timingKey <;> decide
  refine ⟨?_, ?_, ?_, ⟨false, ?_⟩, fun c hc => ?_⟩
  · cases timingKey <;> decide
  · cases timingKey <;> decide
  · cases timingKey <;> decide
  · cases timingKey <;> decide
  · have := List.all_eq_true.1 hchars c hc
    simp only [Bool.and_eq_true, bne_iff_ne] at this
    exact ⟨⟨this.1.1.1, this.1.1.2, this.1.2⟩, this.2⟩

/-- What a raw text is read as comes from its characters. -/
theorem isCueText_of_ofRaw {ρ : Rounding} {raw : List Char} {s : String}
    (hchars : ∀ c ∈ raw, IsBodyChar c) (h : Value.ofRaw ρ raw = .ok (.text s)) :
    IsCueText s.toList := by
  -- A raw value with quotes is the text without them, and any other text is the raw value itself.
  by_cases hquote : '"' ∈ raw
  · unfold Value.ofRaw at h
    rw [if_pos (by simpa using hquote)] at h
    obtain rfl : String.ofList (Token.unquoted raw) = s := by simpa using h
    intro c hc
    rw [String.toList_ofList, Token.unquoted, List.mem_filter] at hc
    exact ⟨by simpa using hc.2, hchars c hc.1⟩
  · obtain rfl := Value.eq_of_ofRaw_eq_text hquote h
    intro c hc
    rw [String.toList_ofList] at hc
    exact ⟨fun heq => hquote (heq ▸ hc), hchars c hc⟩

/-- A token without its quotes is a text of the body. -/
theorem isCueText_word {token : List Char} (hchars : ∀ c ∈ token, IsBodyChar c) :
    IsCueText (CueBody.word token).toList := by
  intro c hc
  rw [CueBody.word, String.toList_ofList, Token.unquoted, List.mem_filter] at hc
  exact ⟨by simpa using hc.2, hchars c hc.1⟩

variable {bpm : Number} {beatsPerBar : ℕ}

/-- What a token is read to as a parameter is one that a body can say. -/
theorem isReadParam_of_readParameter {token : List Char} {stored : String × Value}
    (hwhole : Token.IsWhole token) (hchars : ∀ c ∈ token, IsBodyChar c)
    (hparameter : CueBody.isParameter token = true)
    (h : readParameter .binary64 (.number bpm) (.int beatsPerBar) (CueBody.keyOf token)
      (CueBody.rawOf token) = .ok stored) : IsReadParam stored := by
  have hplain := isPlain_of_readParameter h
  unfold readParameter at h
  split at h
  · obtain ⟨beats, -, h⟩ := bind_eq_ok.1 h
    obtain rfl := pure_eq_ok_iff.1 h
    exact ⟨isCueKey_stored _, hplain, nofun⟩
  · obtain ⟨value, hvalue, h⟩ := bind_eq_ok.1 h
    obtain rfl := pure_eq_ok_iff.1 h
    refine ⟨isCueKey_keyOf hwhole hchars hparameter, hplain, fun s hs => ?_⟩
    have hraw : ∀ c ∈ CueBody.rawOf token, IsBodyChar c := fun c hc =>
      hchars c ((List.dropWhile_sublist _).subset (List.mem_of_mem_drop hc))
    dsimp only at hs
    subst hs
    exact isCueText_of_ofRaw hraw hvalue

namespace CueBody

/-- Parameters and arguments are ones that a body can say, and no key stands twice. -/
structure Details.IsRead (details : Details) : Prop where
  /-- The keys are different. -/
  keys : (details.params.map (·.1)).Nodup
  /-- The parameters are ones that a body can say. -/
  params : ∀ param ∈ details.params, IsReadParam param
  /-- The arguments are texts of the body. -/
  args : ∀ arg ∈ details.args, IsCueText arg.toList

/-- Before the first token nothing has been read. -/
theorem Details.isRead_empty : Details.empty.IsRead where
  keys := List.nodup_nil
  params _ hparam := absurd hparam List.not_mem_nil
  args _ harg := absurd harg List.not_mem_nil

/-- A token of the body keeps what has been read one that a body can say. -/
theorem Details.IsRead.add {details details' : Details} {token : List Char}
    (hwhole : Token.IsWhole token) (hchars : ∀ c ∈ token, IsBodyChar c) (hread : details.IsRead)
    (h : details.add .binary64 (.number bpm) (.int beatsPerBar) token = .ok details') :
    details'.IsRead := by
  cases Details.adds_of_add h with
  | argument =>
    refine ⟨hread.keys, hread.params, fun arg harg => ?_⟩
    rcases List.mem_append.1 harg with harg | harg
    · exact hread.args arg harg
    · rw [List.mem_singleton.1 harg]
      exact isCueText_word hchars
  | repeated => exact ⟨hread.keys, hread.params, hread.args⟩
  | kept htoken hstored hnew =>
    refine ⟨?_, fun param hparam => ?_, hread.args⟩
    · rw [List.map_append, List.map_singleton, List.nodup_append]
      refine ⟨hread.keys, List.nodup_singleton _, fun key hkey key' hkey' => ?_⟩
      rintro rfl
      exact hnew (List.mem_singleton.1 hkey' ▸ hkey)
    · rcases List.mem_append.1 hparam with hparam | hparam
      · exact hread.params param hparam
      · rw [List.mem_singleton.1 hparam]
        exact isReadParam_of_readParameter hwhole hchars htoken hstored

/-- The head of a cue is made of its tokens: the name is one of them or empty, the category is a
category word, and the other tokens are left. -/
theorem head_cases (tokens : List (List Char)) :
    ((head tokens).name = "" ∨ ∃ token ∈ tokens, (head tokens).name = word token) ∧
      (∀ category ∈ (head tokens).category, category ∈ categories) ∧
      (head tokens).rest ⊆ tokens := by
  have hcategory (token : List Char) (h : isCategory (String.ofList token) = true) :
      String.ofList (lower token) ∈ categories := by
    unfold isCategory Text.lowered at h
    rw [String.toList_ofList] at h
    simpa using h
  have hhead := isHead_head tokens
  generalize head tokens = found at hhead
  cases hhead with
  | nil | parameter => simp
  | @categorized first second rest _ hword =>
    refine ⟨.inr ⟨second, by simp, rfl⟩, by simpa using hcategory first hword, ?_⟩
    exact fun token htoken => List.mem_cons_of_mem _ (List.mem_cons_of_mem _ htoken)
  | @category first _ hword => simpa using hcategory first hword
  | @name first rest => exact ⟨.inr ⟨first, List.mem_cons_self, rfl⟩, by simp,
      List.subset_cons_self _ _⟩

end CueBody

/-- A cue is one that a body can say. -/
structure Cue.IsRead (cue : Cue) : Prop where
  /-- The name is a text of the body. -/
  name : IsCueText cue.name.toList
  /-- The category is a category word. -/
  category : ∀ category ∈ cue.category, category ∈ categories
  /-- The keys are different. -/
  keys : (cue.params.map (·.1)).Nodup
  /-- The parameters are ones that a body can say. -/
  params : ∀ param ∈ cue.params, IsReadParam param
  /-- The arguments are texts of the body. -/
  args : ∀ arg ∈ cue.args, IsCueText arg.toList

/-- The cue that a body is read as is one that a body can say. -/
theorem Cue.isRead_of_read {body : List Char} {read : CueBody}
    (hbody : ∀ c ∈ body, IsBodyChar c)
    (h : CueBody.read .binary64 (.number bpm) (.int beatsPerBar) body = .ok read) :
    read.cue.IsRead := by
  obtain ⟨details, hdetails, h⟩ := bind_eq_ok.1 h
  obtain rfl := Except.ok.inj h
  obtain ⟨hname, hcategory, hrest⟩ := CueBody.head_cases (Token.split body)
  -- The tokens are pieces of the body, and they are read one after the other.
  have htoken {token : List Char} (h : token ∈ Token.split body) :
      Token.IsWhole token ∧ ∀ c ∈ token, IsBodyChar c :=
    ⟨Token.isWhole_of_mem_split h, fun c hc => hbody c (Token.mem_of_mem_split h hc)⟩
  have hread : details.IsRead := foldlM_preserves
    (fun token hmem _ _ hread hadd =>
      hread.add (htoken (hrest hmem)).1 (htoken (hrest hmem)).2 hadd)
    CueBody.Details.isRead_empty hdetails
  refine ⟨?_, hcategory, hread.keys, hread.params, hread.args⟩
  rcases hname with hname | ⟨token, hmem, hname⟩
  · dsimp only
    rw [hname]
    exact fun _ hc => absurd hc List.not_mem_nil
  · dsimp only
    rw [hname]
    exact isCueText_word (htoken hmem).2

/-! ## What is accepted -/

/-- A parameter is one that the validator accepts. -/
structure IsAcceptedParam (param : String × Value) : Prop extends IsReadParam param where
  /-- A quantity is finite. -/
  finite : ∀ x, param.2 = .number x → x.isFinite = true
  /-- The key is none that times are written with. -/
  untimed : TimingKey.ofName? param.1 = none
  /-- A stored time is a number of at least zero. -/
  time : param.1 ∈ Validation.beatKeys →
    ∃ x q, param.2 = .number x ∧ x.isNumeric = true ∧ x.toRat? = some q ∧ 0 ≤ q

/-- A cue is one that the validator accepts. -/
structure Cue.IsAccepted (cue : Cue) : Prop where
  /-- The name is not empty. -/
  name_ne_nil : cue.name.toList ≠ []
  /-- The name has characters of names. -/
  name : ∀ c ∈ cue.name.toList, Validation.isNameChar c = true
  /-- The category is a category word. -/
  category : ∀ category ∈ cue.category, category ∈ categories
  /-- The keys are different. -/
  keys : (cue.params.map (·.1)).Nodup
  /-- The parameters are accepted. -/
  params : ∀ param ∈ cue.params, IsAcceptedParam param
  /-- The arguments are texts of the body. -/
  args : ∀ arg ∈ cue.args, IsCueText arg.toList

/-- A name has characters of names, and at least one. -/
theorem Validation.IsName.isNameChar {text : List Char} (h : IsName text) :
    text ≠ [] ∧ ∀ c ∈ text, isNameChar c = true := by
  obtain ⟨first, rest, rfl, hfirst, hrest⟩ := h
  have hstart : Validation.isNameChar first = true := by
    unfold isNameStart at hfirst
    simp [Validation.isNameChar, hfirst]
  exact ⟨List.cons_ne_nil _ _, List.forall_mem_cons.2 ⟨hstart, hrest⟩⟩

/-- A cue that a body can say is accepted if the validator lets it pass. -/
theorem Cue.IsRead.isAccepted {strict : Bool} {maxRepeat : ℕ} {names : Option Namespace} {cue : Cue}
    (hread : cue.IsRead)
    (h : Validation.LetsPass strict (Validation.cueProblems maxRepeat names cue)) :
    cue.IsAccepted := by
  -- Nothing that is read from a body has a line feed.
  have hname : '\n' ∉ cue.name.toList := fun hmem => (hread.name _ hmem).2.2.2 rfl
  have hfeed : ∀ param ∈ cue.params, '\n' ∉ param.1.toList := fun param hparam hmem =>
    ((hread.params param hparam).key.chars _ hmem).1.2.2 rfl
  have hvalid := (Validation.letsPass_cueProblems_iff hname hfeed hread.keys).1 h
  refine ⟨hvalid.name.isNameChar.1, hvalid.name.isNameChar.2, hread.category, hread.keys,
    fun param hparam => ?_, hread.args⟩
  obtain ⟨key, value⟩ := param
  have hparamValid := hvalid.params key value hparam
  refine ⟨hread.params _ hparam, fun x hx => ?_, hparamValid.untimed, fun hkey => ?_⟩
  · obtain rfl : value = .number x := hx
    exact Validation.isFinite_of_letsPass hread.keys h hparam
  · obtain ⟨q, ⟨x, hx, hnumeric, hq⟩, hnonneg⟩ := hparamValid.time hkey
    exact ⟨x, q, hx, hnumeric, hq, hnonneg⟩

end CueSheet
