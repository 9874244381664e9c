import CueSheet.Proofs.Agree
import CueSheet.Proofs.Cue.Details
import CueSheet.Proofs.Lists

/-!
# The body of a cue at two tempos

The tempo and the number of beats in a bar matter to a cue only where a parameter is converted. So
if each parameter comes out alike at two tempos, the cues do, and they have the same problems
(`CueBody.read_agree`). How the values of a parameter are related is left open; only its stored key
has to be the same, because that is what later parameters are compared with.
-/

namespace CueSheet

variable (P : String × Value → String × Value → Prop)

/-- Two cues say the same, up to their parameters, which are related in order. -/
structure Cue.Beside (cue cue' : Cue) : Prop where
  /-- The names are the same. -/
  name : cue.name = cue'.name
  /-- The categories are the same. -/
  category : cue.category = cue'.category
  /-- The parameters are related in order. -/
  params : List.Forall₂ P cue.params cue'.params
  /-- The arguments are the same. -/
  args : cue.args = cue'.args

namespace CueBody

/-- Tokens say the same, up to parameters. -/
structure Details.Beside (details details' : Details) : Prop where
  /-- The parameters are related in order. -/
  params : List.Forall₂ P details.params details'.params
  /-- The arguments are the same. -/
  args : details.args = details'.args
  /-- The problems are the same. -/
  problems : details.problems = details'.problems

/-- The cues of two bodies are related, and their problems are the same. -/
structure Beside (C : Cue → Cue → Prop) (read read' : CueBody) : Prop where
  /-- The cues are related. -/
  cue : C read.cue read'.cue
  /-- The problems are the same. -/
  problems : read.problems = read'.problems

variable {P} {ρ : Rounding} {bpm bpm' beatsPerBar beatsPerBar' : Value}

/-- Related lists of parameters have the same keys taken. -/
theorem isSome_lookup_eq (hkey : ∀ m n, P m n → m.1 = n.1) {params params' : Params}
    (h : List.Forall₂ P params params') (key : String) :
    (params.lookup key).isSome = (params'.lookup key).isSome := by
  have hlookup := lookup_rel (R := fun _ _ _ => True)
    (h.imp fun m n hmn => ⟨hkey m n hmn, trivial⟩) key
  generalize params.lookup key = value?, params'.lookup key = value?' at hlookup ⊢
  cases hlookup <;> rfl

/-- Related parameters are stored alike. -/
theorem Details.Beside.store (hkey : ∀ m n, P m n → m.1 = n.1) {details details' : Details}
    (h : details.Beside P details') (key : String) {stored stored' : String × Value}
    (hstored : P stored stored') :
    Details.Beside P (details.store key stored) (details'.store key stored') := by
  unfold Details.store
  rw [← hkey _ _ hstored, isSome_lookup_eq hkey h.params]
  split_ifs
  · exact ⟨h.params, h.args, by rw [h.problems]⟩
  · exact ⟨List.rel_append h.params (.cons hstored .nil), h.args, h.problems⟩

/-- A token adds the same, if it is no parameter or one that comes out alike. -/
theorem Details.Beside.add (hkey : ∀ m n, P m n → m.1 = n.1) {details details' : Details}
    (h : details.Beside P details') {token : List Char}
    (htoken : isParameter token = true → Agree Eq P
      (readParameter ρ bpm beatsPerBar (keyOf token) (rawOf token))
      (readParameter ρ bpm' beatsPerBar' (keyOf token) (rawOf token))) :
    Agree Eq (Details.Beside P) (details.add ρ bpm beatsPerBar token)
      (details'.add ρ bpm' beatsPerBar' token) := by
  cases hparameter : isParameter token with
  | true =>
    rw [add_of_parameter hparameter, add_of_parameter hparameter]
    exact (htoken hparameter).bind fun _ _ hstored => .ok (h.store hkey _ hstored)
  | false =>
    rw [add_of_argument hparameter, add_of_argument hparameter]
    unfold addArgument
    exact .ok ⟨h.params, by rw [h.args], by rw [h.problems]⟩

/-- Bodies are read alike at two tempos if each of their parameters is. -/
theorem read_agree (hkey : ∀ m n, P m n → m.1 = n.1) {body : List Char}
    (hparams : ∀ token ∈ (head (Token.split body)).rest, isParameter token = true → Agree Eq P
      (readParameter ρ bpm beatsPerBar (keyOf token) (rawOf token))
      (readParameter ρ bpm' beatsPerBar' (keyOf token) (rawOf token))) :
    Agree Eq (Beside (Cue.Beside P)) (read ρ bpm beatsPerBar body)
      (read ρ bpm' beatsPerBar' body) := by
  have hempty : Details.Beside P .empty .empty := ⟨.nil, rfl, rfl⟩
  have hdetails : Agree Eq (Details.Beside P)
      ((head (Token.split body)).rest.foldlM (Details.add ρ bpm beatsPerBar) .empty)
      ((head (Token.split body)).rest.foldlM (Details.add ρ bpm' beatsPerBar') .empty) :=
    .foldlM (fun token htoken _ _ h => h.add hkey (hparams token htoken)) hempty
  exact hdetails.bind fun details details' h =>
    .ok ⟨⟨rfl, rfl, h.params, h.args⟩, by rw [h.problems]⟩

end CueBody

end CueSheet
