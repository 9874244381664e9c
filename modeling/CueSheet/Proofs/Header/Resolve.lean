import CueSheet.Header
import CueSheet.Proofs.Except

/-!
# What headers are resolved to

Headers are resolved in one way: four of them are read, each for itself, with its own reader
(`Settings.readsHeader_of_readIfPresent`), and what they say is put together with the settings by
precedence (`Settings.resolvesTo_of_resolve`). What is proved about resolving headers follows from
these two.
-/

namespace CueSheet.Settings

variable {ρ : Rounding} {config : Config} {headers : Headers} {settings : Settings}
  {diagnostics : List Diagnostic}

/-- What a header is read to: without it a fixed result, and otherwise what its reader makes of the
value, with the problems on the line of the header. -/
inductive ReadsHeader {α : Type} (headers : Headers) (key : HeaderKey)
    (read : String → Except Fault (α × List Problem)) (absent : α) : α → List Diagnostic → Prop
  /-- There is no such header. -/
  | absent (h : headers.get? key = none) : ReadsHeader headers key read absent absent []
  /-- The value of the header is read. -/
  | present {header : Header} {result : α} {problems : List Problem}
    (h : headers.get? key = some header) (hread : read header.value = .ok (result, problems)) :
    ReadsHeader headers key read absent result (problems.map (.onLine header.line))

/-- A header is read in one of the two ways. -/
theorem readsHeader_of_readIfPresent {α : Type} {key : HeaderKey}
    {read : String → Except Fault (α × List Problem)} {absent result : α}
    (h : readIfPresent headers key read absent = .ok (result, diagnostics)) :
    ReadsHeader headers key read absent result diagnostics := by
  unfold readIfPresent at h
  split at h
  · next hnone =>
    obtain ⟨rfl, rfl⟩ := Prod.mk.inj (Except.ok.inj h)
    exact .absent hnone
  · next header hfound =>
    obtain ⟨⟨a, problems⟩, hread, h⟩ := bind_eq_ok.1 h
    obtain ⟨rfl, rfl⟩ := Prod.mk.inj (Except.ok.inj h)
    exact .present hfound hread

/-- What headers are resolved to, from what the four with a form of their own are read to. The
settings of a run come first, then headers of their own, then what other headers imply. -/
inductive ResolvesTo (ρ : Rounding) (config : Config) (headers : Headers) :
    Settings → List Diagnostic → Prop
  /-- Each of the four headers is read. -/
  | intro {changes : List (Segment Number)} {signature : Option (String × ℕ)}
    {bpm beats : Option Number} {ofChanges ofSignature ofBpm ofBeats : List Diagnostic}
    (hchanges : ReadsHeader headers .tempoMap (readTempoMap ρ) [] changes ofChanges)
    (hsignature : ReadsHeader headers .timeSignature readSignature none signature ofSignature)
    (hbpm : ReadsHeader headers .bpm (readPositive ρ .bpm) none bpm ofBpm)
    (hbeats : ReadsHeader headers .beatsPerBar (readPositive ρ .beatsPerBar) none beats ofBeats) :
    ResolvesTo ρ config headers
      { title := (headers.get? .title).map (·.value)
        bpm := (((config.bpm.map (·.val)).or (bpm.or (declaredBpm? changes))).getD
          config.defaultBpm.val).normalize
        beatsPerBar := ((config.beatsPerBar.map (·.val)).or
          (((beats.bind (·.whole?)).map Int.toNat).or (signature.map (·.2)))).getD
            config.defaultBeatsPerBar.val
        key := (headers.get? .musicalKey).map (·.value)
        version := ((headers.get? .version).map (·.value)).getD defaultVersion
        timeSignature := signature.map (·.1)
        instruments := (((headers.get? .instruments).map (·.value)).map readNames).getD []
        tempoChanges := changes }
      (ofChanges ++ ofSignature ++ ofBpm ++ ofBeats)

/-- Headers are resolved in this way. -/
theorem resolvesTo_of_resolve (h : resolve ρ config headers = .ok (settings, diagnostics)) :
    ResolvesTo ρ config headers settings diagnostics := by
  obtain ⟨⟨changes, ofChanges⟩, hchanges, h⟩ := bind_eq_ok.1 h
  obtain ⟨⟨signature, ofSignature⟩, hsignature, h⟩ := bind_eq_ok.1 h
  obtain ⟨⟨bpm, ofBpm⟩, hbpm, h⟩ := bind_eq_ok.1 h
  obtain ⟨⟨beats, ofBeats⟩, hbeats, h⟩ := bind_eq_ok.1 h
  obtain ⟨rfl, rfl⟩ := Prod.mk.inj (Except.ok.inj h)
  exact .intro (readsHeader_of_readIfPresent hchanges) (readsHeader_of_readIfPresent hsignature)
    (readsHeader_of_readIfPresent hbpm) (readsHeader_of_readIfPresent hbeats)

end CueSheet.Settings
