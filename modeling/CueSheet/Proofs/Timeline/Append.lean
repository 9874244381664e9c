import CueSheet.Proofs.Timeline.Sorted

/-!
# More sections behind those of a song

A song with more sections behind its own has the events of the song among its own
(`Timeline.scheduleAlone_of_append`): they are those whose place in the walk is below the number of
events of the song. The walk through the sections in front is the same, so its entries have the same
numbers, and sorting keeps them in the order that they have alone, wherever the entries of later
sections fall between them.

The induction of sorting is not repeated for this. Entries are picked from a walk and numbered anew
in the same order, and both lists that are compared are in order with the same entries, which leaves
only one sequence (`Timeline.map_filter_sorted`).
-/

namespace CueSheet.Timeline

variable {ρ : Rounding} {limit : ℕ} {happenings : List (Number × Happening)}

/-! ## Walks -/

/-- Parts of a walk may be put together in any grouping. -/
theorem Walk.append_assoc (first second third : Walk) :
    (first.append second).append third = first.append (second.append third) := by
  simp [Walk.append]

/-- A walk through sections goes on from where the walk through those in front leaves the cursor. -/
theorem walkSections_append (cursor : Number) (parts more : List Section) :
    walkSections ρ limit cursor (parts ++ more) = (do
      let first ← walkSections ρ limit cursor parts
      return first.append (← walkSections ρ limit first.cursor more)) := by
  induction parts generalizing cursor with
  | nil => simp [walkSections, Walk.append]
  | cons part parts ih =>
    rw [List.cons_append, walkSections, walkSections]
    simp only [ih, bind_assoc, pure_bind, Walk.append_assoc]
    rfl

/-! ## Entries that are numbered anew -/

/-- The entry at another place. -/
def Entry.renumber (f : ℕ → ℕ) (entry : Entry) : Entry := { entry with order := f entry.order }

/-- Happenings as entries that are numbered from a place on. -/
def entriesFrom (place : ℕ) (happenings : List (Number × Happening)) : List Entry :=
  (happenings.zipIdx place).map fun ((beat, happening), order) => ⟨beat, order, happening⟩

/-- The entries of a walk are numbered from zero on. -/
theorem entries_eq (walk : Walk) : entries walk = entriesFrom 0 walk.happenings := rfl

/-- Happenings behind others are numbered behind them. -/
theorem entriesFrom_append (place : ℕ) (xs ys : List (Number × Happening)) :
    entriesFrom place (xs ++ ys) = entriesFrom place xs ++ entriesFrom (place + xs.length) ys := by
  rw [entriesFrom, List.zipIdx_append, List.map_append]
  rfl

/-- Numbered anew from another place on, entries are those that are numbered from there. -/
theorem map_renumber_entriesFrom {f : ℕ → ℕ} {place : ℕ} (place' : ℕ)
    (h : ∀ i < happenings.length, f (place + i) = place' + i) :
    (entriesFrom place happenings).map (Entry.renumber f) = entriesFrom place' happenings := by
  refine List.ext_getElem (by simp [entriesFrom]) fun i hi _ => ?_
  simp only [entriesFrom, List.length_map, List.length_zipIdx] at hi
  simp [entriesFrom, Entry.renumber, h i hi]

/-- Entries are picked together if their places are. -/
theorem filter_entriesFrom (keep : ℕ → Bool) {place : ℕ} (kept : Bool)
    (h : ∀ i < happenings.length, keep (place + i) = kept) :
    (entriesFrom place happenings).filter (fun entry => keep entry.order) =
      if kept then entriesFrom place happenings else [] := by
  have hkeep : ∀ entry ∈ entriesFrom place happenings, keep entry.order = kept := by
    intro entry hentry
    obtain ⟨⟨⟨beat, happening⟩, order⟩, hmem, rfl⟩ := List.mem_map.1 hentry
    have hlower := List.le_snd_of_mem_zipIdx hmem
    have hupper := List.snd_lt_add_of_mem_zipIdx hmem
    obtain ⟨i, rfl⟩ := Nat.exists_eq_add_of_le hlower
    exact h i (by omega)
  cases kept with
  | true => exact List.filter_eq_self.2 hkeep
  | false => exact List.filter_eq_nil_iff.2 fun entry hentry => by simp [hkeep entry hentry]

/-! ## Sorted entries -/

/-- Of two entries on points only one is in front of the other. -/
theorem not_isBefore_of_isBefore {first second : Entry} (hfirst : first.beat.IsPoint)
    (hsecond : second.beat.IsPoint) (h : Entry.IsBefore first second) :
    ¬Entry.IsBefore second first := by
  obtain ⟨hlt, heq⟩ := hfirst.compare hsecond
  obtain ⟨hlt', heq'⟩ := hsecond.compare hfirst
  rw [Entry.IsBefore, hlt, heq] at h
  rw [Entry.IsBefore, hlt', heq']
  rcases h with h | ⟨heq, horder⟩
  · exact fun h' => h'.elim (fun hlt => lt_asymm h hlt) fun heq => ne_of_gt h heq.1
  · exact fun h' => h'.elim (fun hlt => ne_of_gt hlt heq) fun h => lt_asymm horder h.2

/-- Sorting commutes with picking entries and numbering them anew in the same order. -/
theorem map_filter_sorted {w w' : Walk} (keep : ℕ → Bool) (f : ℕ → ℕ)
    (hpoints : ∀ happening ∈ w.happenings, happening.1.IsPoint)
    (hf : ∀ m n, keep m = true → keep n = true → m < n → f m < f n)
    (h : ((entries w).filter fun entry => keep entry.order).map (Entry.renumber f) = entries w') :
    ((sorted (entries w)).filter fun entry => keep entry.order).map (Entry.renumber f) =
      sorted (entries w') := by
  have hperm : (((sorted (entries w)).filter fun entry => keep entry.order).map
      (Entry.renumber f)).Perm (sorted (entries w')) := by
    refine (((List.mergeSort_perm _ _).filter _).map _).trans ?_
    rw [h]
    exact (List.mergeSort_perm _ _).symm
  have hbeats := (forall_sorted_iff (P := Number.IsPoint) w).2 hpoints
  -- The entries that are picked keep their beats, and so they are on points too.
  have hpoints' : ∀ entry ∈ sorted (entries w'), entry.beat.IsPoint := by
    intro entry hentry
    obtain ⟨picked, hpicked, rfl⟩ := List.mem_map.1 (hperm.mem_iff.2 hentry)
    exact hbeats picked (List.mem_of_mem_filter hpicked)
  have hordered : (((sorted (entries w)).filter fun entry => keep entry.order).map
      (Entry.renumber f)).Pairwise Entry.IsBefore := by
    rw [List.pairwise_map, List.pairwise_filter]
    refine (pairwise_sorted hpoints).imp fun {first second} hbefore hfirst hsecond => ?_
    exact hbefore.imp_right fun hsame => ⟨hsame.1, hf _ _ hfirst hsecond hsame.2⟩
  -- Both lists are in order, and they have the same entries, no two of which could change places.
  refine hperm.eq_of_pairwise (fun x y hx hy hxy hyx => ?_) hordered
    (pairwise_sorted ((forall_sorted_iff w').1 hpoints'))
  exact absurd hyx
    (not_isBefore_of_isBefore (hpoints' x (hperm.mem_iff.1 hx)) (hpoints' y hy) hxy)

/-- The entries of a walk that goes on are those of the walk and ones with greater numbers. -/
theorem filter_entries_append (walk : Walk) (more : List (Number × Happening)) (cursor : Number) :
    (entries ⟨cursor, walk.happenings ++ more⟩).filter
        (fun entry => entry.order < (entries walk).length) = entries walk := by
  have hlength : (entries walk).length = walk.happenings.length := by simp [entries]
  have hfront : (entriesFrom 0 walk.happenings).filter
      (fun entry => entry.order < walk.happenings.length) = entriesFrom 0 walk.happenings :=
    filter_entriesFrom (fun place => place < walk.happenings.length) true (by simp)
  have hback : (entriesFrom (0 + walk.happenings.length) more).filter
      (fun entry => entry.order < walk.happenings.length) = [] :=
    filter_entriesFrom (fun place => place < walk.happenings.length) false (by simp)
  rw [hlength, entries_eq, entries_eq, entriesFrom_append, List.filter_append, hfront, hback,
    List.append_nil]

/-- Sorted entries of a walk that goes on are, as far as they belong to the walk, its own sorted
entries. -/
theorem filter_sorted_append {walk : Walk} {more : List (Number × Happening)} {cursor : Number}
    (h : ∀ happening ∈ walk.happenings ++ more, happening.1.IsPoint) :
    (sorted (entries ⟨cursor, walk.happenings ++ more⟩)).filter
        (fun entry => entry.order < (entries walk).length) = sorted (entries walk) := by
  have hsame : Entry.renumber id = id := rfl
  have hentries := filter_entries_append walk more cursor
  rw [← List.map_id (List.filter _ (entries _)), ← hsame] at hentries
  have hsorted := map_filter_sorted (fun place => decide (place < (entries walk).length)) id h
    (fun _ _ _ _ hlt => hlt) hentries
  rwa [hsame, List.map_id] at hsorted

/-! ## Events -/

/-- A song with more sections behind its own has, among its events, exactly the events of the song
as those whose place in the walk is below their number. -/
theorem scheduleAlone_of_append {song : Song} {more : List Section} {events : List Event}
    (h : scheduleAlone .binary64 limit { song with sections := song.sections ++ more } =
      .ok events) :
    ∃ front, scheduleAlone .binary64 limit song = .ok front ∧
      events.filter (fun event => orderIn event.payload < front.length) = front := by
  obtain ⟨map, hmap, h⟩ := bind_eq_ok.1 h
  obtain ⟨whole, hwhole, hevents⟩ := bind_eq_ok.1 h
  have hmap : TempoMap.ofSong .binary64 song = .ok map := hmap
  obtain ⟨segments, -, -, rfl⟩ := TempoMap.ofSegments_eq_ok_iff.1 hmap
  have hof := TempoMap.isOf_fresh .binary64 segments
  have hwalks : WalksSections .binary64 limit (.real (.finite 0)) (song.sections ++ more)
      whole.cursor whole.happenings := walkSections_eq_ok_iff.1 hwhole
  have hpoints := (lands_binary64.walksSections hwalks ⟨_, rfl, .inl ⟨0, rfl, le_rfl⟩⟩).2
  rw [walk, walkSections_append] at hwhole
  obtain ⟨first, hfirst, hwhole⟩ := bind_eq_ok.1 hwhole
  obtain ⟨rest, -, hwhole⟩ := bind_eq_ok.1 hwhole
  obtain rfl := pure_eq_ok_iff.1 hwhole
  rw [run_times hof, mapM_eq_ok_iff] at hevents
  -- An event belongs to the song in front exactly if its entry does.
  have hfront := List.rel_filter
    (p := fun entry : Entry => entry.order < (entries first).length)
    (q := fun event : Event => orderIn event.payload < (entries first).length) ?_ hevents
  · rw [Walk.append, filter_sorted_append hpoints] at hfront
    have hlength :
        (events.filter fun event => orderIn event.payload < (entries first).length).length =
          (entries first).length := by
      rw [← hfront.length_eq, sorted, List.length_mergeSort]
    refine ⟨_, ?_, congrArg (fun n => events.filter fun event => orderIn event.payload < n) hlength⟩
    rw [scheduleAlone, hmap, ok_bind, schedule, walk, hfirst, ok_bind, run_times hof,
      mapM_eq_ok_iff]
    exact hfront
  · rintro entry event hevent
    obtain ⟨seconds, -, hevent⟩ := bind_eq_ok.1 hevent
    obtain rfl := Except.ok.inj hevent
    have horder : orderIn (eventAt entry seconds).payload = entry.order := orderIn_untimed entry
    simp only [horder]

end CueSheet.Timeline
