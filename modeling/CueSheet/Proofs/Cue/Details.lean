import CueSheet.Cue.Body
import CueSheet.Proofs.Except
import CueSheet.Proofs.Lists

/-!
# What the tokens of a cue say

The head of a cue is split off in one of five ways (`IsHead`). A token after it is a parameter or an
argument (`isParameter`). An argument never fails (`add_of_argument`). A parameter is converted
first, and then stored unless its key is taken (`add_of_parameter`); so it fails exactly where its
conversion does, even if it repeats a key. What a token adds is one of three things
(`Details.adds_of_add`).
-/

namespace CueSheet.CueBody

open Text (lower)

/-! ## Heads -/

/-- The head of a list of tokens. -/
inductive IsHead : List (List Char) → Head → Prop where
  /-- Without tokens there is no head. -/
  | nil : IsHead [] ⟨none, "", []⟩
  /-- A first token with an equals sign belongs to no head. -/
  | parameter {first : List Char} {rest : List (List Char)} (h : '=' ∈ first) :
    IsHead (first :: rest) ⟨none, "", first :: rest⟩
  /-- Behind a category word the next token is the name, unless it has an equals sign. -/
  | categorized {first second : List Char} {rest : List (List Char)} (hfirst : '=' ∉ first)
    (hcategory : isCategory (String.ofList first) = true) (hsecond : '=' ∉ second) :
    IsHead (first :: second :: rest) ⟨some (String.ofList (lower first)), word second, rest⟩
  /-- A category word that stands alone is a category without a name. -/
  | category {first : List Char} (hfirst : '=' ∉ first)
    (hcategory : isCategory (String.ofList first) = true) :
    IsHead [first] ⟨some (String.ofList (lower first)), "", []⟩
  /-- Any other first token is the name. -/
  | name {first : List Char} {rest : List (List Char)} (hfirst : '=' ∉ first)
    (hother : isCategory (String.ofList first) = true →
      ∃ second others, rest = second :: others ∧ '=' ∈ second) :
    IsHead (first :: rest) ⟨none, word first, rest⟩

/-- The head is split off as it stands. -/
theorem isHead_head (tokens : List (List Char)) : IsHead tokens (head tokens) := by
  cases tokens with
  | nil => exact .nil
  | cons first rest =>
    unfold head
    dsimp only
    split_ifs with hequals hcategory
    · exact .parameter (by simpa [hasEquals] using hequals)
    · have hfirst : '=' ∉ first := by simpa [hasEquals] using hequals
      cases rest with
      | nil => exact .category hfirst hcategory
      | cons second others =>
        dsimp only
        split_ifs with hsecond
        · exact .name hfirst fun _ => ⟨second, others, rfl, by simpa [hasEquals] using hsecond⟩
        · exact .categorized hfirst hcategory (by simpa [hasEquals] using hsecond)
    · exact .name (by simpa [hasEquals] using hequals) fun h => absurd h hcategory

/-! ## One token after the head -/

/-- Whether a token after the head is a parameter. -/
def isParameter (token : List Char) : Bool :=
  token.head? != some '"' && hasEquals token && !(lower (token.takeWhile (· != '='))).isEmpty

/-- The key of a token that is a parameter. -/
def keyOf (token : List Char) : String := String.ofList (lower (token.takeWhile (· != '=')))

/-- The raw value of a token that is a parameter. -/
def rawOf (token : List Char) : List Char := (token.dropWhile (· != '=')).drop 1

/-- The key under which a token is stored if it is a parameter. -/
def storedKey (token : List Char) : String :=
  match timing? (keyOf token) (rawOf token) with
  | some (timingKey, _) => timingKey.stored
  | none => keyOf token

/-- The problem of an argument that looks like a parameter without a key. -/
def keyless? (token : List Char) : Option Problem :=
  if hasEquals token && (lower (token.takeWhile (· != '='))).isEmpty && token.head? != some '"' then
    some (.parameterWithoutKey (String.ofList token))
  else none

/-- Adds an argument. -/
def Details.addArgument (details : Details) (token : List Char) : Details :=
  { details with
    args := details.args ++ [word token]
    problems := details.problems ++ (keyless? token).toList }

/-- Stores a converted parameter, unless its stored key is taken. -/
def Details.store (details : Details) (key : String) (stored : String × Value) : Details :=
  if (details.params.lookup stored.1).isSome then
    { details with problems := details.problems ++ [.duplicateParameter key] }
  else { details with params := details.params ++ [stored] }

variable {ρ : Rounding} {bpm beatsPerBar : Value} {details : Details} {token : List Char}

/-- A parameter is stored under the stored key of its token. -/
theorem storedKey_of_readParameter {stored : String × Value}
    (h : readParameter ρ bpm beatsPerBar (keyOf token) (rawOf token) = .ok stored) :
    stored.1 = storedKey token := by
  unfold readParameter at h
  unfold storedKey
  cases htiming : timing? (keyOf token) (rawOf token) with
  | some timing =>
    rw [htiming] at h
    obtain ⟨beats, -, h⟩ := bind_eq_ok.1 h
    exact congrArg Prod.fst (pure_eq_ok_iff.1 h).symm
  | none =>
    rw [htiming] at h
    obtain ⟨value, -, h⟩ := bind_eq_ok.1 h
    exact congrArg Prod.fst (pure_eq_ok_iff.1 h).symm

/-- A token that is no parameter is an argument, whatever it says. -/
theorem Details.add_of_argument (h : isParameter token = false) :
    details.add ρ bpm beatsPerBar token = .ok (details.addArgument token) := by
  have hguard : (token.head? == some '"' || !hasEquals token ||
      (lower (token.takeWhile (· != '='))).isEmpty) = true := by
    rw [← Bool.not_eq_false']
    simpa [isParameter, bne, Bool.not_or] using h
  unfold Details.add addArgument keyless?
  simp only [hguard, if_true]
  congr 3
  simp only [bne]
  split <;> rfl

/-- A token that is a parameter is converted and then stored. -/
theorem Details.add_of_parameter (h : isParameter token = true) :
    details.add ρ bpm beatsPerBar token =
      (readParameter ρ bpm beatsPerBar (keyOf token) (rawOf token) >>= fun stored =>
        .ok (details.store (keyOf token) stored)) := by
  have hguard : (token.head? == some '"' || !hasEquals token ||
      (lower (token.takeWhile (· != '='))).isEmpty) = false := by
    rw [← Bool.not_eq_true']
    simpa [isParameter, bne, Bool.not_or] using h
  unfold Details.add store
  simp only [hguard, Bool.false_eq_true, if_false]
  congr 1
  funext stored
  split <;> rfl

/-- What a token after the head adds to what has been read before it. -/
inductive Details.Adds (ρ : Rounding) (bpm beatsPerBar : Value) (details : Details)
    (token : List Char) : Details → Prop where
  /-- An argument is added, with the problem that it may have. -/
  | argument (h : isParameter token = false) :
    Adds ρ bpm beatsPerBar details token (details.addArgument token)
  /-- A parameter whose stored key is taken is only reported. -/
  | repeated {stored : String × Value} (h : isParameter token = true)
    (hread : readParameter ρ bpm beatsPerBar (keyOf token) (rawOf token) = .ok stored)
    (htaken : stored.1 ∈ details.params.map (·.1)) :
    Adds ρ bpm beatsPerBar details token
      { details with problems := details.problems ++ [.duplicateParameter (keyOf token)] }
  /-- Any other parameter is kept behind the others. -/
  | kept {stored : String × Value} (h : isParameter token = true)
    (hread : readParameter ρ bpm beatsPerBar (keyOf token) (rawOf token) = .ok stored)
    (hnew : stored.1 ∉ details.params.map (·.1)) :
    Adds ρ bpm beatsPerBar details token { details with params := details.params ++ [stored] }

/-- A token adds one of the three things. -/
theorem Details.adds_of_add {details' : Details}
    (h : details.add ρ bpm beatsPerBar token = .ok details') :
    Details.Adds ρ bpm beatsPerBar details token details' := by
  cases htoken : isParameter token with
  | false =>
    rw [add_of_argument htoken] at h
    obtain rfl := Except.ok.inj h
    exact .argument htoken
  | true =>
    rw [add_of_parameter htoken] at h
    obtain ⟨stored, hread, h⟩ := bind_eq_ok.1 h
    obtain rfl := Except.ok.inj h
    unfold store
    split_ifs with htaken
    · exact .repeated htoken hread (lookup_isSome_iff.1 htaken)
    · exact .kept htoken hread (mt lookup_isSome_iff.2 htaken)

end CueSheet.CueBody
