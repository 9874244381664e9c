import CueSheet.Proofs.Header.Sound
import CueSheet.Proofs.Line
import CueSheet.Proofs.Text.Digit

/-!
# The texts of resolved headers

The settings of a song keep the texts of its headers: a title, a musical key and a version are values
of headers as they stand, a time signature is one that is read as itself, and the instruments are
names without commas (`Settings.isRead_of_resolve`).
-/

namespace CueSheet

open Text (isBlank isDigit digitValues pieces strip)

/-- A text can be the name of an instrument in a list that is separated by commas. -/
structure IsListedName (name : List Char) : Prop extends IsHeaderValue name where
  /-- It has no comma. -/
  comma : ',' ∉ name

/-- The texts of settings are those that headers give. -/
structure Settings.IsRead (settings : Settings) : Prop where
  /-- The version is a value of a header. -/
  version : IsHeaderValue settings.version.toList
  /-- The title is one. -/
  title : ∀ title ∈ settings.title, IsHeaderValue title.toList
  /-- The musical key is one. -/
  key : ∀ key ∈ settings.key, IsHeaderValue key.toList
  /-- The time signature is one that is read as itself. -/
  timeSignature : ∀ signature ∈ settings.timeSignature, IsHeaderValue signature.toList ∧
    ∃ beats, Settings.readSignature signature = .ok (some (signature, beats), [])
  /-- The instruments are names without commas. -/
  instruments : ∀ name ∈ settings.instruments, IsListedName name.toList

namespace Settings

variable {config : Config} {headers : Headers} {settings : Settings} {diagnostics : List Diagnostic}

/-- Two texts of digits with a stroke between them are the sides of a time signature. -/
theorem signatureDigits?_stroke {upper lower : List Char} (hupper : upper ≠ [])
    (hlower : lower ≠ []) (hupperDigits : ∀ c ∈ upper, isDigit c = true)
    (hlowerDigits : ∀ c ∈ lower, isDigit c = true) :
    signatureDigits? (upper ++ '/' :: lower) = some (upper, lower) := by
  have hstroke : isDigit '/' = false := by decide
  have hblank : isBlank '/' = false := by decide
  have htake : (upper ++ '/' :: lower).takeWhile isDigit = upper := by
    rw [List.takeWhile_append_of_pos hupperDigits, List.takeWhile_cons_of_neg (by simp [hstroke]),
      List.append_nil]
  have hdrop : (upper ++ '/' :: lower).dropWhile isDigit = '/' :: lower := by
    rw [List.dropWhile_append_of_pos hupperDigits, List.dropWhile_cons_of_neg (by simp [hstroke])]
  have hlower' : lower.dropWhile isBlank = lower :=
    Text.dropWhile_isBlank_eq fun c hc =>
      Text.not_isBlank_of_isDigit (hlowerDigits c (List.mem_of_mem_head? hc))
  have hafter : afterSeparator? '/' ('/' :: lower) = some lower := by
    simp [afterSeparator?, hblank, hlower']
  have hall : lower.all isDigit = true := List.all_eq_true.2 hlowerDigits
  simp [signatureDigits?, htake, hdrop, hafter, hupper, hlower, hall]

/-- The sides of a time signature are digits. -/
theorem of_signatureDigits? {value upper lower : List Char}
    (h : signatureDigits? value = some (upper, lower)) :
    upper ≠ [] ∧ lower ≠ [] ∧ (∀ c ∈ upper, isDigit c = true) ∧ ∀ c ∈ lower, isDigit c = true := by
  unfold signatureDigits? at h
  dsimp only at h
  split at h
  · cases h
  · split_ifs at h with hsides
    obtain ⟨rfl, rfl⟩ := Prod.mk.inj (Option.some.inj h)
    simp only [Bool.and_eq_true, Bool.not_eq_true', List.isEmpty_eq_false_iff,
      List.all_eq_true] at hsides
    exact ⟨hsides.1.1, hsides.1.2, fun c hc => List.mem_takeWhile_imp hc, hsides.2⟩

/-- Digits with a stroke between them can be the value of a header. -/
theorem isHeaderValue_stroke {upper lower : List Char} (hupper : ∀ c ∈ upper, isDigit c = true)
    (hlower : ∀ c ∈ lower, isDigit c = true) : IsHeaderValue (upper ++ '/' :: lower) := by
  have hblank : ∀ c ∈ upper ++ '/' :: lower, isBlank c = false := by
    rw [List.forall_mem_append, List.forall_mem_cons]
    exact ⟨fun c hc => Text.not_isBlank_of_isDigit (hupper c hc), by decide,
      fun c hc => Text.not_isBlank_of_isDigit (hlower c hc)⟩
  exact ⟨by simp, Text.isStripped_of_bare hblank,
    fun hfeed => absurd (hblank _ hfeed) (by decide)⟩

/-- A time signature that is kept is read as itself. -/
theorem readSignature_of_kept {value signature : String} {beats : ℕ} {problems : List Problem}
    (h : readSignature value = .ok (some (signature, beats), problems)) :
    IsHeaderValue signature.toList ∧
      readSignature signature = .ok (some (signature, beats), []) := by
  unfold readSignature at h
  dsimp only at h
  split at h
  · cases h
  · next upper lower hsides =>
    obtain ⟨hupper, hlower, hupperDigits, hlowerDigits⟩ := of_signatureDigits? hsides
    obtain ⟨beats', hbeats, h⟩ := bind_eq_ok.1 h
    split_ifs at h with hzero
    · cases h
    · obtain ⟨unit, hunit, h⟩ := bind_eq_ok.1 h
      split_ifs at h with hunitZero
      · cases h
      · obtain ⟨hsome, -⟩ := Prod.mk.inj (Except.ok.inj h)
        obtain ⟨rfl, rfl⟩ := Prod.mk.inj (Option.some.inj hsome)
        -- What is kept are the digits of both sides with nothing in between but the stroke.
        have hself := signatureDigits?_stroke hupper hlower hupperDigits hlowerDigits
        refine ⟨?_, ?_⟩
        · rw [String.toList_ofList]
          exact isHeaderValue_stroke hupperDigits hlowerDigits
        · unfold readSignature
          dsimp only
          rw [String.toList_ofList, hself]
          dsimp only
          rw [hbeats, ok_bind, if_neg hzero, hunit, ok_bind, if_neg hunitZero]
          rfl

/-- The names in a list on one line are names without commas. -/
theorem isListedName_of_readNames {value : String} (hvalue : IsHeaderValue value.toList) :
    ∀ name ∈ readNames value, IsListedName name.toList := by
  intro name hname
  obtain ⟨stripped, hstripped, rfl⟩ := List.mem_map.1 hname
  obtain ⟨hmem, hne⟩ := List.mem_filter.1 hstripped
  obtain ⟨piece, hpiece, rfl⟩ := List.mem_map.1 hmem
  -- The names are pieces of the value, cut at its commas.
  have hchars {c : Char} (hc : c ∈ strip piece) : c ∈ value.toList ∧ c ≠ ',' := by
    obtain ⟨hvalue, hcomma⟩ := Text.mem_of_mem_pieces hpiece (Text.mem_of_mem_strip hc)
    exact ⟨hvalue, by simpa using hcomma⟩
  rw [String.toList_ofList]
  exact ⟨⟨by simpa using hne, Text.isStripped_strip piece, fun hc => hvalue.feed (hchars hc).1⟩,
    fun hc => (hchars hc).2 rfl⟩

/-- The version of a document that names none can be the value of a header. -/
theorem isHeaderValue_defaultVersion : IsHeaderValue defaultVersion.toList := by
  have hbare : (defaultVersion.toList.all fun c => !isBlank c) = true := by decide
  simp only [List.all_eq_true, Bool.not_eq_true'] at hbare
  exact ⟨by decide, Text.isStripped_of_bare hbare, by decide⟩

/-- The texts that headers are resolved to are those of the headers. -/
theorem isRead_of_resolve {ρ : Rounding}
    (hheaders : ∀ header ∈ headers, IsHeaderValue header.value.toList)
    (h : resolve ρ config headers = .ok (settings, diagnostics)) : settings.IsRead := by
  have hvalue {key : HeaderKey} {value : String}
      (hget : (headers.get? key).map (·.value) = some value) : IsHeaderValue value.toList := by
    obtain ⟨header, hheader, rfl⟩ := Option.map_eq_some_iff.1 hget
    exact hheaders header (List.mem_of_find?_eq_some hheader)
  obtain ⟨-, hsignature, -, -⟩ := resolvesTo_of_resolve h
  refine ⟨?_, fun title htitle => hvalue htitle, fun key hkey => hvalue hkey, ?_, ?_⟩
  · exact of_getD (P := fun version : String => IsHeaderValue version.toList)
      (fun version hversion => hvalue hversion) isHeaderValue_defaultVersion
  · -- A time signature is kept as its text, and it is the text that was read.
    intro text htext
    obtain ⟨⟨signature, beats⟩, hpair, rfl⟩ := Option.map_eq_some_iff.1 htext
    have hkept := of_readsHeader
      (P := fun signature : Option (String × ℕ) => ∀ pair ∈ signature, IsHeaderValue pair.1.toList ∧
        readSignature pair.1 = .ok (some (pair.1, pair.2), []))
      (fun pair hpair => absurd hpair (by simp)) (fun value signature problems hread pair hpair => by
        obtain rfl := Option.mem_def.1 hpair
        exact readSignature_of_kept hread) hsignature
    obtain ⟨hheader, hread⟩ := hkept _ hpair
    exact ⟨hheader, beats, hread⟩
  · exact of_getD (P := fun names : List String => ∀ name ∈ names, IsListedName name.toList)
      (fun names hnames => by
        obtain ⟨value, hget, rfl⟩ := Option.map_eq_some_iff.1 hnames
        exact isListedName_of_readNames (hvalue hget)) nofun

end Settings

end CueSheet
