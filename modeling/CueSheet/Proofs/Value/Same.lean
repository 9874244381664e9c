import CueSheet.Proofs.Lists
import CueSheet.Ir
import CueSheet.Proofs.Numeric.Order

/-!
# Values that are the same

Two values are the same if they have the same parts in the same order, where quantities are compared
as quantities: `4` and `4.0` are the same although they are different values. Only finite quantities
are the same as themselves. The canonical forms of two songs are the same exactly if the fields of
the songs are, one by one (`Song.same_toIr_iff`).
-/

namespace CueSheet

namespace Value

mutual

/-- Whether two values are the same. -/
def same : (v w : Value) → Bool
  | null, w =>
    match w with
    | null => true
    | number _ | text _ | list _ | record _ => false
  | number x, w =>
    match w with
    | number y => x.eq y
    | null | text _ | list _ | record _ => false
  | text s, w =>
    match w with
    | text t => s = t
    | null | number _ | list _ | record _ => false
  | list xs, w =>
    match w with
    | list ys => sameItems xs ys
    | null | number _ | text _ | record _ => false
  | record ms, w =>
    match w with
    | record ns => sameMembers ms ns
    | null | number _ | text _ | list _ => false

/-- Whether two lists of values are the same. -/
def sameItems : (xs ys : List Value) → Bool
  | [], [] => true
  | [], _ :: _ | _ :: _, [] => false
  | x :: xs, y :: ys => same x y && sameItems xs ys

/-- Whether two lists of members are the same. -/
def sameMembers : (ms ns : List (String × Value)) → Bool
  | [], [] => true
  | [], _ :: _ | _ :: _, [] => false
  | (a, v) :: ms, (b, w) :: ns => a = b && same v w && sameMembers ms ns

end

/-- Two members are the same if their names are equal and their values are the same. -/
def SameMember (m n : String × Value) : Prop := m.1 = n.1 ∧ m.2.same n.2 = true

variable {x y : Number} {s t : String} {xs ys : List Value} {ms ns : List (String × Value)}

@[simp] theorem same_text_iff : same (text s) (text t) = true ↔ s = t := decide_eq_true_iff

/-- Two lists are the same if their items are. -/
theorem same_list_iff :
    same (list xs) (list ys) = true ↔ List.Forall₂ (fun x y => x.same y = true) xs ys := by
  change sameItems xs ys = true ↔ _
  induction xs generalizing ys with
  | nil => cases ys <;> simp [sameItems]
  | cons x xs ih => cases ys <;> simp [sameItems, ih]

/-- Two records are the same if their members are. -/
theorem same_record_iff : same (record ms) (record ns) = true ↔ List.Forall₂ SameMember ms ns := by
  change sameMembers ms ns = true ↔ _
  induction ms generalizing ns with
  | nil => cases ns <;> simp [sameMembers]
  | cons m ms ih =>
    cases ns with
    | nil => simp [sameMembers]
    | cons n ns => simp [sameMembers, ih, SameMember]

/-- Texts that may be missing are the same if they are equal. -/
theorem same_ofText?_iff {o p : Option String} : same (ofText? o) (ofText? p) = true ↔ o = p := by
  cases o <;> cases p <;> simp [ofText?, same]

/-- Lists of texts are the same if they are equal. -/
theorem same_ofTexts_iff {as bs : List String} :
    same (ofTexts as) (ofTexts bs) = true ↔ as = bs := by
  rw [ofTexts, ofTexts, same_list_iff, List.forall₂_map_left_iff, List.forall₂_map_right_iff]
  simp only [same_text_iff]
  rw [List.forall₂_eq_eq_eq]

end Value

/-! ## Songs with the same canonical form -/

/-- Two cues are the same. -/
structure Cue.Same (c d : Cue) : Prop where
  /-- The names are equal. -/
  name : c.name = d.name
  /-- The categories are equal. -/
  category : c.category = d.category
  /-- The parameters are the same in order. -/
  params : List.Forall₂ Value.SameMember c.params d.params
  /-- The arguments are equal. -/
  args : c.args = d.args

/-- Two items are the same, whatever their lines. -/
def Item.Same : Item → Item → Prop
  | .performance s _, .performance t _ => s = t
  | .lyric s _, .lyric t _ => s = t
  | .cue c _, .cue d _ => c.Same d
  | _, _ => False

/-- Two sections are the same, whatever their lines. -/
structure Section.Same (part other : Section) : Prop where
  /-- The identifiers are equal. -/
  id : part.id = other.id
  /-- The labels are equal. -/
  label : part.label = other.label
  /-- The items are the same in order. -/
  items : List.Forall₂ Item.Same part.items other.items

/-- Two tempo segments are the same. -/
def Segment.Same (segment other : Segment Value) : Prop :=
  segment.start.same other.start = true ∧ segment.bpm.same other.bpm = true

/-- Two songs are the same. -/
structure Song.Same (song other : Song) : Prop where
  /-- The versions are equal. -/
  version : song.version = other.version
  /-- The titles are equal. -/
  title : song.title = other.title
  /-- The tempos are the same. -/
  bpm : song.bpm.same other.bpm = true
  /-- The numbers of beats in a bar are the same. -/
  beatsPerBar : song.beatsPerBar.same other.beatsPerBar = true
  /-- The keys are equal. -/
  key : song.key = other.key
  /-- The time signatures are equal. -/
  timeSignature : song.timeSignature = other.timeSignature
  /-- The instruments are equal. -/
  instruments : song.instruments = other.instruments
  /-- The segments in effect are the same in order. -/
  segments : List.Forall₂ Segment.Same song.segments other.segments
  /-- The sections are the same in order. -/
  sections : List.Forall₂ Section.Same song.sections other.sections

open Value (same same_record_iff same_list_iff same_text_iff same_ofText?_iff same_ofTexts_iff
  SameMember)

/-- The canonical forms of two segments are the same exactly if the segments are. -/
theorem Segment.same_toIr_iff {segment other : Segment Value} :
    segment.toIr.same other.toIr = true ↔ segment.Same other := by
  simp [toIr, same_record_iff, SameMember, Same]

/-- The canonical forms of two items are the same exactly if the items are. -/
theorem Item.same_toIr_iff {item other : Item} {v w : Value} (hv : item.toIr = .ok v)
    (hw : other.toIr = .ok w) : v.same w = true ↔ item.Same other := by
  cases item <;> cases other <;> cases hv <;> cases hw <;>
    simp [same_record_iff, SameMember, same_ofText?_iff, same_ofTexts_iff, Same]
  exact ⟨fun ⟨hname, hcategory, hparams, hargs⟩ => ⟨hname, hcategory, hparams, hargs⟩,
    fun h => ⟨h.name, h.category, h.params, h.args⟩⟩

/-- The canonical forms of two sections are the same exactly if the sections are. -/
theorem Section.same_toIr_iff {part other : Section} {v w : Value} (hv : part.toIr = .ok v)
    (hw : other.toIr = .ok w) : v.same w = true ↔ part.Same other := by
  obtain ⟨items, hitems, hv⟩ := bind_eq_ok.1 hv
  obtain ⟨others, hothers, hw⟩ := bind_eq_ok.1 hw
  obtain rfl := pure_eq_ok_iff.1 hv
  obtain rfl := pure_eq_ok_iff.1 hw
  have hsame := forall₂_iff_beside (R := fun v w : Value => v.same w = true) (S := Item.Same)
    (fun _ _ _ _ hv hw => Item.same_toIr_iff hv hw) (mapM_eq_ok_iff.1 hitems)
    (mapM_eq_ok_iff.1 hothers)
  simp only [same_record_iff, List.forall₂_cons, List.Forall₂.nil, SameMember, same_text_iff,
    same_list_iff, hsame, true_and, and_true]
  exact ⟨fun ⟨hid, hlabel, hitems⟩ => ⟨hid, hlabel, hitems⟩, fun h => ⟨h.id, h.label, h.items⟩⟩

/-- The canonical forms of two songs are the same exactly if the songs are. -/
theorem Song.same_toIr_iff {song other : Song} {v w : Value} (hv : song.toIr = .ok v)
    (hw : other.toIr = .ok w) : v.same w = true ↔ song.Same other := by
  obtain ⟨sections, hsections, hv⟩ := bind_eq_ok.1 hv
  obtain ⟨others, hothers, hw⟩ := bind_eq_ok.1 hw
  obtain rfl := pure_eq_ok_iff.1 hv
  obtain rfl := pure_eq_ok_iff.1 hw
  have hsame := forall₂_iff_beside (R := fun v w : Value => v.same w = true) (S := Section.Same)
    (fun _ _ _ _ hv hw => Section.same_toIr_iff hv hw) (mapM_eq_ok_iff.1 hsections)
    (mapM_eq_ok_iff.1 hothers)
  simp only [same_record_iff, List.forall₂_cons, List.Forall₂.nil, SameMember, same_text_iff,
    same_ofText?_iff, same_ofTexts_iff, same_list_iff, hsame, List.forall₂_map_left_iff,
    List.forall₂_map_right_iff, Segment.same_toIr_iff, true_and, and_true]
  constructor
  · rintro ⟨h₁, h₂, h₃, h₄, h₅, h₆, h₇, h₈, h₉⟩
    exact ⟨h₁, h₂, h₃, h₄, h₅, h₆, h₇, h₈, h₉⟩
  · intro h
    exact ⟨h.version, h.title, h.bpm, h.beatsPerBar, h.key, h.timeSignature, h.instruments,
      h.segments, h.sections⟩

end CueSheet
