import CueSheet.Proofs.Config
import CueSheet.Proofs.Header.Resolve

/-!
# What resolved headers settle

Whatever the headers say, the settings of a song are sound: the tempo is finite, above zero and can
meet real numbers, a bar has at least one beat, and the declared tempo changes are pairs of amounts
(`Settings.isSound_of_resolve`).
-/

namespace CueSheet

namespace Settings

/-- The settings of a song make sense. -/
structure IsSound (settings : Settings) : Prop where
  /-- The tempo is finite and above zero. -/
  bpm : settings.bpm.isTempo = true
  /-- The tempo can meet real numbers. -/
  kept : settings.bpm.IsKept
  /-- A bar has at least one beat. -/
  beatsPerBar : 0 < settings.beatsPerBar
  /-- Tempo changes are pairs of amounts. -/
  changes : ∀ segment ∈ settings.tempoChanges, segment.start.IsAmount ∧ segment.bpm.IsAmount

/-- A number that a header is read to is an amount above zero, and a whole number if it counts the
beats of a bar. -/
theorem of_readPositive {header : TempoHeader} {value : String} {number : Number}
    {problems : List Problem}
    (h : readPositive .binary64 header value = .ok (some number, problems)) :
    number.IsAmount ∧ number.isPositive = true ∧
      (header = .bpm ∨ number.whole?.isSome = true) := by
  unfold readPositive at h
  dsimp only at h
  split at h
  · cases h
  · split at h
    · cases h
    · next hfinite =>
      rw [Bool.not_eq_true, Bool.not_eq_false'] at hfinite
      obtain ⟨read, hread, h⟩ := bind_eq_ok.1 h
      have hamount := Literal.isAmount_number hfinite hread
      split_ifs at h with hallowed
      · obtain ⟨hnumber, -⟩ := Prod.mk.inj (Except.ok.inj h)
        obtain rfl := Option.some.inj hnumber
        rw [Bool.and_eq_true, Bool.or_eq_true, decide_eq_true_eq] at hallowed
        exact ⟨hamount, hallowed⟩
      · cases h

/-- The beats of a time signature are not zero, and have no more digits than are written. -/
theorem of_readSignature {value : String} {signature : String} {beats : ℕ}
    {problems : List Problem}
    (h : readSignature value = .ok (some (signature, beats), problems)) :
    0 < beats ∧ beats < 10 ^ digitLimit := by
  unfold readSignature at h
  dsimp only at h
  split at h
  · cases h
  · obtain ⟨upper, hupper, h⟩ := bind_eq_ok.1 h
    split_ifs at h with hzero
    · cases h
    · obtain ⟨lower, -, h⟩ := bind_eq_ok.1 h
      split_ifs at h
      · cases h
      · obtain ⟨hsignature, -⟩ := Prod.mk.inj (Except.ok.inj h)
        obtain ⟨-, rfl⟩ := Prod.mk.inj (Option.some.inj hsignature)
        exact ⟨Nat.pos_of_ne_zero hzero, lt_of_readDigits hupper⟩

/-- An entry of a tempo map is a pair of amounts. -/
theorem of_readEntry {entry : List Char} {segment : Segment Number}
    (h : readEntry .binary64 entry = .ok (some segment)) :
    segment.start.IsAmount ∧ segment.bpm.IsAmount := by
  unfold readEntry at h
  split at h
  · cases h
  · split_ifs at h with hfinite
    · rw [Bool.and_eq_true] at hfinite
      obtain ⟨start, hstart, h⟩ := bind_eq_ok.1 h
      obtain ⟨bpm, hbpm, h⟩ := bind_eq_ok.1 h
      obtain rfl := Option.some.inj (Except.ok.inj h)
      exact ⟨Literal.isAmount_number hfinite.1 hstart, Literal.isAmount_number hfinite.2 hbpm⟩
    · cases h

/-- The entries of a tempo map are pairs of amounts. -/
theorem of_readEntries {entries : List (List Char)} {segments : List (Segment Number)}
    (h : readEntries .binary64 entries = .ok (.ok segments)) :
    ∀ segment ∈ segments, segment.start.IsAmount ∧ segment.bpm.IsAmount := by
  induction entries generalizing segments with
  | nil =>
    obtain rfl := Except.ok.inj (Except.ok.inj h)
    nofun
  | cons entry entries ih =>
    obtain ⟨read, hread, h⟩ := bind_eq_ok.1 h
    cases read with
    | none => cases h
    | some first =>
      obtain ⟨rest, hrest, h⟩ := bind_eq_ok.1 h
      cases rest with
      | error => cases h
      | ok rest =>
        obtain rfl := Except.ok.inj (Except.ok.inj h)
        intro segment hsegment
        rcases List.mem_cons.1 hsegment with rfl | hsegment
        · exact of_readEntry hread
        · exact ih hrest segment hsegment

/-- The declared tempo changes are pairs of amounts. -/
theorem of_readTempoMap {value : String} {changes : List (Segment Number)}
    {problems : List Problem} (h : readTempoMap .binary64 value = .ok (changes, problems)) :
    ∀ segment ∈ changes, segment.start.IsAmount ∧ segment.bpm.IsAmount := by
  obtain ⟨read, hread, h⟩ := bind_eq_ok.1 h
  cases read with
  | error =>
    obtain ⟨rfl, -⟩ := Prod.mk.inj (Except.ok.inj h)
    nofun
  | ok segments =>
    obtain ⟨rfl, -⟩ := Prod.mk.inj (Except.ok.inj h)
    exact of_readEntries hread

/-- What holds of the result without a header and of every result with one holds of the result. -/
theorem of_readsHeader {α : Type} {P : α → Prop} {headers : Headers} {key : HeaderKey}
    {read : String → Except Fault (α × List Problem)} {absent result : α}
    {diagnostics : List Diagnostic} (habsent : P absent)
    (hread : ∀ value a problems, read value = .ok (a, problems) → P a)
    (h : ReadsHeader headers key read absent result diagnostics) : P result := by
  cases h with
  | absent => exact habsent
  | present _ hresult => exact hread _ _ _ hresult

/-- The tempo changes that a header is read to are pairs of amounts. -/
theorem of_readsHeader_readTempoMap {headers : Headers} {key : HeaderKey}
    {changes : List (Segment Number)} {diagnostics : List Diagnostic}
    (h : ReadsHeader headers key (readTempoMap .binary64) [] changes diagnostics) :
    ∀ segment ∈ changes, segment.start.IsAmount ∧ segment.bpm.IsAmount :=
  of_readsHeader
    (P := fun changes => ∀ segment ∈ changes, segment.start.IsAmount ∧ segment.bpm.IsAmount)
    nofun (fun _ _ _ => of_readTempoMap) h

/-- The tempo of a declared change at beat zero that counts is an amount above zero. -/
theorem of_declaredBpm? {changes : List (Segment Number)} {bpm : Number}
    (hchanges : ∀ segment ∈ changes, segment.start.IsAmount ∧ segment.bpm.IsAmount)
    (h : declaredBpm? changes = some bpm) : bpm.IsAmount ∧ bpm.isPositive = true := by
  obtain ⟨hfound, hpositive⟩ := Option.filter_eq_some_iff.1 h
  obtain ⟨segment, hsegment, rfl⟩ := Option.map_eq_some_iff.1 hfound
  exact ⟨(hchanges segment (List.mem_of_find?_eq_some hsegment)).2, hpositive⟩

/-- An amount above zero is a tempo. -/
theorem isTempo_of_isAmount {x : Number} (h : x.IsAmount) (hpositive : x.isPositive = true) :
    x.isTempo = true := by
  obtain ⟨q, hq, -⟩ := h.nonneg
  exact Number.isTempo_iff.2 ⟨h.numeric, q, hq, (Number.isPositive_iff hq).1 hpositive⟩

/-- What holds of each of two results that may be missing holds of the first that is there. -/
theorem of_or {α : Type} {P : α → Prop} {x y : Option α} (hx : ∀ a ∈ x, P a) (hy : ∀ a ∈ y, P a) :
    ∀ a ∈ x.or y, P a := by
  cases x with
  | none => simpa using hy
  | some b => simpa using hx

/-- What holds of a result that may be missing and of its default holds of what is used. -/
theorem of_getD {α : Type} {P : α → Prop} {x : Option α} {a : α} (hx : ∀ b ∈ x, P b) (ha : P a) :
    P (x.getD a) := by
  cases x with
  | none => exact ha
  | some b => exact hx b rfl

/-- The number that a header is read to, if any, is an amount above zero. -/
theorem of_readsHeader_readPositive {headers : Headers} {key : HeaderKey} {header : TempoHeader}
    {number : Option Number} {diagnostics : List Diagnostic}
    (h : ReadsHeader headers key (readPositive .binary64 header) none number diagnostics) :
    ∀ x ∈ number, x.IsAmount ∧ x.isPositive = true :=
  of_readsHeader (P := fun number => ∀ x ∈ number, x.IsAmount ∧ x.isPositive = true) nofun
    (fun _ _ _ hread x hx => by
      obtain rfl := Option.mem_def.1 hx
      obtain ⟨hamount, hpositive, -⟩ := of_readPositive hread
      exact ⟨hamount, hpositive⟩) h

variable {config : Config} {headers : Headers} {settings : Settings}
  {diagnostics : List Diagnostic}

/-- What holds of the tempos of the settings and of every amount above zero, also as a whole number
where it is whole, holds of the tempo that headers are resolved to: it is the first that is there of
four. -/
theorem bpm_of_resolve {P : Number → Prop} (hamount : ∀ x, x.IsAmount → x.isPositive = true → P x)
    (hconfig : ∀ tempo ∈ config.bpm, P tempo.val) (hdefault : P config.defaultBpm.val)
    (hnormalize : ∀ x, P x → P x.normalize)
    (h : resolve .binary64 config headers = .ok (settings, diagnostics)) : P settings.bpm := by
  obtain ⟨hchanges, -, hbpm, -⟩ := resolvesTo_of_resolve h
  refine hnormalize _ (of_getD ?_ hdefault)
  -- In order: the settings, the header of the tempo, and the tempo changes.
  refine of_or (fun x hx => ?_) (of_or (fun x hx => ?_) fun x hx => ?_)
  · obtain ⟨tempo, htempo, rfl⟩ := Option.map_eq_some_iff.1 hx
    exact hconfig tempo htempo
  · obtain ⟨hx, hpositive⟩ := of_readsHeader_readPositive hbpm x hx
    exact hamount x hx hpositive
  · obtain ⟨hx, hpositive⟩ := of_declaredBpm? (of_readsHeader_readTempoMap hchanges) hx
    exact hamount x hx hpositive

/-- The tempo that headers are resolved to is finite and above zero, whatever the settings are. -/
theorem isTempo_of_resolve
    (h : resolve .binary64 config headers = .ok (settings, diagnostics)) :
    settings.bpm.isTempo = true :=
  bpm_of_resolve (P := fun x => x.isTempo = true) (fun _ => isTempo_of_isAmount)
    (fun tempo _ => tempo.property) config.defaultBpm.property (fun _ => Number.isTempo_normalize) h

/-- What holds of the numbers of beats in a bar of the settings, of every whole amount above zero and of
the beats of every time signature holds of the number of beats in a bar that headers are resolved to:
it is the first that is there of four. -/
theorem beatsPerBar_of_resolve {P : ℕ → Prop} (hconfig : ∀ count ∈ config.beatsPerBar, P count.val)
    (hamount : ∀ n : ℤ, (Number.int n).IsAmount → 1 ≤ n → P n.toNat)
    (hsignature : ∀ value signature beats problems,
      readSignature value = .ok (some (signature, beats), problems) → P beats)
    (hdefault : P config.defaultBeatsPerBar.val)
    (h : resolve .binary64 config headers = .ok (settings, diagnostics)) : P settings.beatsPerBar := by
  obtain ⟨-, hfound, -, hbeats⟩ := resolvesTo_of_resolve h
  have hsignatureOf := of_readsHeader (P := fun signature => ∀ pair ∈ signature, P pair.2)
    nofun (fun value a problems hread pair hpair => by
      obtain rfl := Option.mem_def.1 hpair
      exact hsignature _ _ _ _ hread) hfound
  -- In order: the settings, the header of the beats, and the time signature.
  refine of_getD (of_or (fun n hn => ?_) (of_or (fun n hn => ?_) fun n hn => ?_)) hdefault
  · obtain ⟨count, hcount, rfl⟩ := Option.map_eq_some_iff.1 hn
    exact hconfig count hcount
  · obtain ⟨k, hk, rfl⟩ := Option.map_eq_some_iff.1 hn
    obtain ⟨x, hx, hwhole⟩ := Option.bind_eq_some_iff.1 hk
    obtain ⟨hx, hpositive⟩ := of_readsHeader_readPositive hbeats x hx
    cases x with
    | real => cases hwhole
    | bool => exact absurd hx.numeric Bool.false_ne_true
    | int m =>
      obtain rfl := Option.some.inj hwhole
      exact hamount m hx (Number.isPositive_int_iff.1 hpositive)
  · obtain ⟨pair, hpair, rfl⟩ := Option.map_eq_some_iff.1 hn
    exact hsignatureOf pair hpair

/-- The settings that headers are resolved to are sound. -/
theorem isSound_of_resolve (hconfig : config.IsKept)
    (h : resolve .binary64 config headers = .ok (settings, diagnostics)) : settings.IsSound := by
  have hkept : settings.bpm.IsKept := bpm_of_resolve (fun _ hamount _ => hamount.kept) hconfig.bpm
    hconfig.defaultBpm (fun _ => Number.IsKept.normalize) h
  have hbeats : 0 < settings.beatsPerBar := beatsPerBar_of_resolve (P := fun n => 0 < n)
    (fun count _ => count.property) (fun _ _ hpositive => by omega)
    (fun _ _ _ _ hread => (of_readSignature hread).1) config.defaultBeatsPerBar.property h
  refine ⟨isTempo_of_resolve h, hkept, hbeats, ?_⟩
  obtain ⟨hchanges, -⟩ := resolvesTo_of_resolve h
  exact of_readsHeader_readTempoMap hchanges

end Settings

end CueSheet
