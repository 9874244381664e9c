import CueSheet.Ir
import CueSheet.Proofs.Except
import CueSheet.Proofs.Lists
import CueSheet.Proofs.Song

/-!
# Values that are alike

Two values are alike if they are equal up to the order in which records name their members
(`Value.Alike`): a record is what it gives for each name. Quantities are alike only if they are
equal, so whole numbers, real numbers and truth values stay apart. If the canonical forms of two
songs are alike, so is all that a schedule reads of the songs (`Song.alike_of_toIr`).
-/

namespace CueSheet

/-- Two values are equal up to the order of the members of records. -/
inductive Value.Alike : Value → Value → Prop where
  /-- A value is like itself. -/
  | refl (v : Value) : Alike v v
  /-- The items of the lists are alike in order. -/
  | list {items items' : List Value} (h : List.Forall₂ Alike items items') :
    Alike (.list items) (.list items')
  /-- The records give what is alike for each name. -/
  | record {members members' : List (String × Value)}
    (h : ∀ name, Option.Rel Alike (members.lookup name) (members'.lookup name)) :
    Alike (.record members) (.record members')

namespace Value.Alike

variable {v w : Value}

/-- Records with the same names in order are alike if their values are. -/
theorem of_members {members members' : List (String × Value)}
    (h : List.Forall₂ (fun m m' => m.1 = m'.1 ∧ Value.Alike m.2 m'.2) members members') :
    Value.Alike (.record members) (.record members') :=
  .record (lookup_rel (R := fun _ => Value.Alike) h)

/-- Alike texts are equal. -/
theorem text_eq {s t : String} (h : Alike (.text s) (.text t)) : s = t := by
  cases h
  rfl

/-- Alike lists have items that are alike in order. -/
theorem items {items items' : List Value} (h : Alike (.list items) (.list items')) :
    List.Forall₂ Alike items items' := by
  cases h with
  | refl => exact List.forall₂_same.2 fun v _ => .refl v
  | list h => exact h

/-- Alike records give what is alike for each name. -/
theorem lookup {members members' : List (String × Value)}
    (h : Alike (.record members) (.record members')) (name : String) :
    Option.Rel Alike (members.lookup name) (members'.lookup name) := by
  cases h with
  | refl =>
    cases members.lookup name with
    | none => exact .none
    | some v => exact .some (.refl v)
  | record h => exact h name

/-- Members of one name in alike records are alike. -/
theorem member {members members' : List (String × Value)}
    (h : Alike (.record members) (.record members')) (name : String)
    (hv : members.lookup name = some v) (hw : members'.lookup name = some w) : v.Alike w := by
  have hlookup := h.lookup name
  rw [hv, hw] at hlookup
  cases hlookup with
  | some h => exact h

/-- Alike texts that may be missing are equal. -/
theorem ofText?_eq {o p : Option String} (h : Alike (.ofText? o) (.ofText? p)) : o = p := by
  cases o <;> cases p <;> cases h <;> rfl

/-- Alike lists of texts are equal. -/
theorem ofTexts_eq {as bs : List String} (h : Alike (.ofTexts as) (.ofTexts bs)) : as = bs := by
  have hitems := h.items
  rw [List.forall₂_map_left_iff, List.forall₂_map_right_iff] at hitems
  rw [← List.forall₂_eq_eq_eq]
  exact hitems.imp fun _ _ => text_eq

end Value.Alike

/-! ## Songs with the same canonical form -/

/-- Two tempo segments are alike. -/
structure Segment.Alike (segment segment' : Segment Value) : Prop where
  /-- The starts are alike. -/
  start : segment.start.Alike segment'.start
  /-- The tempos are alike. -/
  bpm : segment.bpm.Alike segment'.bpm

/-- Two cues are alike. -/
structure Cue.Alike (cue cue' : Cue) : Prop where
  /-- The names are the same. -/
  name : cue.name = cue'.name
  /-- The categories are the same. -/
  category : cue.category = cue'.category
  /-- The parameters are alike. -/
  params : ∀ key, Option.Rel Value.Alike (cue.params.lookup key) (cue'.params.lookup key)
  /-- The arguments are the same. -/
  args : cue.args = cue'.args

/-- Two songs have alike tempos, and their sections say the same, whatever their lines. -/
structure Song.Alike (song song' : Song) : Prop where
  /-- The segments in effect are alike in order. -/
  segments : List.Forall₂ Segment.Alike song.segments song'.segments
  /-- The sections say the same in order. -/
  sections : List.Forall₂ (Section.Beside Cue.Alike fun _ _ => True) song.sections song'.sections

/-- Segments with alike canonical forms are alike. -/
theorem Segment.alike_of_toIr {segment segment' : Segment Value}
    (h : segment.toIr.Alike segment'.toIr) : segment.Alike segment' :=
  ⟨h.member "startBeat" rfl rfl, h.member "bpm" rfl rfl⟩

/-- Items with alike canonical forms say the same. -/
theorem Item.alike_of_toIr {item item' : Item} {v w : Value} (hv : item.toIr = .ok v)
    (hw : item'.toIr = .ok w) (h : v.Alike w) :
    Item.Beside Cue.Alike (fun _ _ => True) item item' := by
  -- The types tell the kinds of items apart.
  cases item with
  | raw => cases hv
  | performance text line =>
    obtain rfl := pure_eq_ok_iff.1 hv
    cases item' with
    | raw => cases hw
    | performance text' line' =>
      obtain rfl := pure_eq_ok_iff.1 hw
      obtain rfl := (h.member "text" rfl rfl).text_eq
      exact .performance text trivial
    | lyric | cue =>
      obtain rfl := pure_eq_ok_iff.1 hw
      exact absurd (h.member "type" rfl rfl).text_eq (by decide)
  | lyric text line =>
    obtain rfl := pure_eq_ok_iff.1 hv
    cases item' with
    | raw => cases hw
    | lyric text' line' =>
      obtain rfl := pure_eq_ok_iff.1 hw
      obtain rfl := (h.member "text" rfl rfl).text_eq
      exact .lyric text trivial
    | performance | cue =>
      obtain rfl := pure_eq_ok_iff.1 hw
      exact absurd (h.member "type" rfl rfl).text_eq (by decide)
  | cue c line =>
    obtain rfl := pure_eq_ok_iff.1 hv
    cases item' with
    | raw => cases hw
    | cue c' line' =>
      obtain rfl := pure_eq_ok_iff.1 hw
      exact .cue ⟨(h.member "name" rfl rfl).text_eq, (h.member "category" rfl rfl).ofText?_eq,
        (h.member "params" rfl rfl).lookup, (h.member "args" rfl rfl).ofTexts_eq⟩ trivial
    | performance | lyric =>
      obtain rfl := pure_eq_ok_iff.1 hw
      exact absurd (h.member "type" rfl rfl).text_eq (by decide)

/-- Sections with alike canonical forms say the same. -/
theorem Section.alike_of_toIr {part part' : Section} {v w : Value} (hv : part.toIr = .ok v)
    (hw : part'.toIr = .ok w) (h : v.Alike w) :
    Section.Beside Cue.Alike (fun _ _ => True) part part' := by
  obtain ⟨items, hitems, hv⟩ := bind_eq_ok.1 hv
  obtain ⟨items', hitems', hw⟩ := bind_eq_ok.1 hw
  obtain rfl := pure_eq_ok_iff.1 hv
  obtain rfl := pure_eq_ok_iff.1 hw
  refine ⟨(h.member "id" rfl rfl).text_eq, (h.member "label" rfl rfl).text_eq, trivial, ?_⟩
  have hbeside (a : Item) (v : Value) (b : Item) (w : Value) (hv : a.toIr = .ok v)
      (hw : b.toIr = .ok w) (h : v.Alike w) : Item.Beside Cue.Alike (fun _ _ => True) a b :=
    Item.alike_of_toIr hv hw h
  exact forall₂_of_beside hbeside (mapM_eq_ok_iff.1 hitems) (mapM_eq_ok_iff.1 hitems')
    (h.member "items" rfl rfl).items

/-- Songs with alike canonical forms are alike. -/
theorem Song.alike_of_toIr {song song' : Song} {v w : Value} (hv : song.toIr = .ok v)
    (hw : song'.toIr = .ok w) (h : v.Alike w) : song.Alike song' := by
  obtain ⟨parts, hparts, hv⟩ := bind_eq_ok.1 hv
  obtain ⟨parts', hparts', hw⟩ := bind_eq_ok.1 hw
  obtain rfl := pure_eq_ok_iff.1 hv
  obtain rfl := pure_eq_ok_iff.1 hw
  have hsegments := (h.member "tempoMap" rfl rfl).items
  rw [List.forall₂_map_left_iff, List.forall₂_map_right_iff] at hsegments
  refine ⟨hsegments.imp fun _ _ => Segment.alike_of_toIr, ?_⟩
  have hbeside (a : Section) (v : Value) (b : Section) (w : Value) (hv : a.toIr = .ok v)
      (hw : b.toIr = .ok w) (h : v.Alike w) : Section.Beside Cue.Alike (fun _ _ => True) a b :=
    Section.alike_of_toIr hv hw h
  exact forall₂_of_beside hbeside (mapM_eq_ok_iff.1 hparts) (mapM_eq_ok_iff.1 hparts')
    (h.member "sections" rfl rfl).items

end CueSheet
