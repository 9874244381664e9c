import Mathlib.Data.List.Nodup
import CueSheet.Proofs.Cue.Details
import CueSheet.Proofs.Text.Lower

/-!
# Every token of a cue counts once

The tokens of a cue are its head, its arguments and its parameters, and every parameter either is
the first one under its key or repeats one (`CueBody.accounts_of_read`). Whether a parameter repeats
another one depends on the tokens before it, so tokens are taken as occurrences, with what stands
before them (`CueBody.occurrences`). The induction is on the tokens from the last one, and what a
token adds is compared with what has been kept of the tokens before it (`CueBody.Accounts.add`).
-/

namespace CueSheet.CueBody

open Text (lower)

/-- Whether a token after the head is an argument: it starts with a quote, or it has no equals sign,
or it has nothing in front of the first one. -/
def isArgument (token : List Char) : Bool :=
  token.head? == some '"' || !token.contains '=' || token.head? == some '='

/-- The tokens of a list behind other ones, each with all the tokens before it. -/
def occurrencesFrom (before : List (List Char)) :
    List (List Char) → List (List (List Char) × List Char)
  | [] => []
  | token :: rest => (before, token) :: occurrencesFrom (before ++ [token]) rest

/-- The tokens of a list, each with the tokens before it. -/
def occurrences (tokens : List (List Char)) : List (List (List Char) × List Char) :=
  occurrencesFrom [] tokens

/-- Whether a token is a parameter, and no parameter before it is stored under its key. -/
def isFirst (occurrence : List (List Char) × List Char) : Bool :=
  !isArgument occurrence.2 && occurrence.1.all fun earlier =>
    isArgument earlier || storedKey earlier != storedKey occurrence.2

/-- The parameters that are the first ones under their keys, in order. -/
def firsts (tokens : List (List Char)) : List (List Char) :=
  ((occurrences tokens).filter isFirst).map Prod.snd

/-- The problem of a token: it has an equals sign without a key, or it repeats a parameter. -/
def occurrenceProblem? (occurrence : List (List Char) × List Char) : Option Problem :=
  if occurrence.2.head? = some '=' then some (.parameterWithoutKey (String.ofList occurrence.2))
  else if isArgument occurrence.2 || isFirst occurrence then none
  else some (.duplicateParameter (keyOf occurrence.2))

/-- Whether a problem is that a parameter is repeated. -/
def isDuplicate : Problem → Bool
  | .duplicateParameter _ => true
  | _ => false

/-- Details account for each token once. -/
structure Details.Accounts (ρ : Rounding) (bpm beatsPerBar : Value) (tokens : List (List Char))
    (details : Details) : Prop where
  /-- The arguments are the tokens that are arguments, without their quotes. -/
  args : details.args = (tokens.filter isArgument).map word
  /-- The parameters are the first ones under their keys, with the values that these are read as. -/
  params : List.Forall₂ (fun token param => param.1 = storedKey token ∧
    readParameter ρ bpm beatsPerBar (keyOf token) (rawOf token) = .ok param) (firsts tokens)
      details.params
  /-- The keys are the stored keys of the tokens that are no arguments. -/
  keys : ∀ key, key ∈ details.params.map (·.1) ↔
    ∃ token ∈ tokens, isArgument token = false ∧ storedKey token = key
  /-- The keys are different. -/
  distinct : (details.params.map (·.1)).Nodup
  /-- The problems are those of the tokens, in order. -/
  problems : details.problems = (occurrences tokens).filterMap occurrenceProblem?
  /-- Each token is an argument, a parameter that is kept or one that repeats another. -/
  count : details.args.length + details.params.length + details.problems.countP isDuplicate =
    tokens.length

variable {ρ : Rounding} {bpm beatsPerBar : Value} {tokens : List (List Char)} {token : List Char}
  {details details' : Details} {stored : String × Value}

/-! ## Occurrences -/

/-- A text with an equals sign has nothing in front of the first one exactly if it starts with it. -/
theorem key_isEmpty {token : List Char} (h : hasEquals token = true) :
    (lower (token.takeWhile (· != '='))).isEmpty = (token.head? == some '=') := by
  rw [Bool.eq_iff_iff, List.isEmpty_iff, Text.lower_eq_nil_iff]
  cases token with
  | nil => cases h
  | cons c rest => by_cases hc : c = '=' <;> simp [hc]

/-- The tokens that are no arguments are parameters. -/
theorem isParameter_eq (token : List Char) : isParameter token = !isArgument token := by
  unfold isParameter isArgument
  cases hequals : hasEquals token with
  | false => simp_all [hasEquals]
  | true => rw [key_isEmpty hequals]; simp_all [hasEquals, bne]

/-- With one more token, the others occur as before. -/
theorem occurrencesFrom_concat (before tokens : List (List Char)) (token : List Char) :
    occurrencesFrom before (tokens ++ [token]) =
      occurrencesFrom before tokens ++ [(before ++ tokens, token)] := by
  induction tokens generalizing before with
  | nil => simp [occurrencesFrom]
  | cons first tokens ih => simp [occurrencesFrom, ih]

/-- With one more token, the others occur as before. -/
theorem occurrences_concat (tokens : List (List Char)) (token : List Char) :
    occurrences (tokens ++ [token]) = occurrences tokens ++ [(tokens, token)] :=
  occurrencesFrom_concat [] tokens token

/-- One more token is a first parameter or leaves them as they are. -/
theorem firsts_concat (tokens : List (List Char)) (token : List Char) :
    firsts (tokens ++ [token]) =
      firsts tokens ++ if isFirst (tokens, token) then [token] else [] := by
  rw [firsts, occurrences_concat, List.filter_append, List.map_append, ← firsts, List.filter_cons]
  split <;> rfl

/-- One more token has its problem behind those of the others. -/
theorem problems_concat (tokens : List (List Char)) (token : List Char) :
    (occurrences (tokens ++ [token])).filterMap occurrenceProblem? =
      (occurrences tokens).filterMap occurrenceProblem? ++
        (occurrenceProblem? (tokens, token)).toList := by
  rw [occurrences_concat, List.filterMap_append, List.filterMap_cons]
  split <;> simp_all

/-- A parameter is the first one exactly if no parameter before it has its key. -/
theorem isFirst_iff (h : isArgument token = false) :
    isFirst (tokens, token) = true ↔
      ¬∃ earlier ∈ tokens, isArgument earlier = false ∧ storedKey earlier = storedKey token := by
  simp only [isFirst, h, Bool.not_false, Bool.true_and, List.all_eq_true, Bool.or_eq_true,
    bne_iff_ne, not_exists, not_and]
  refine forall₂_congr fun earlier _ => ?_
  cases isArgument earlier <;> simp

/-- A first parameter is no argument. -/
theorem isArgument_of_isFirst (h : isFirst (tokens, token) = true) : isArgument token = false := by
  rw [isFirst, Bool.and_eq_true, Bool.not_eq_true'] at h
  exact h.1

/-! ## One more token -/

/-- The problem of an argument is that it has no key. -/
theorem occurrenceProblem?_of_argument (tokens : List (List Char)) (h : isArgument token = true) :
    occurrenceProblem? (tokens, token) = keyless? token := by
  unfold occurrenceProblem? keyless?
  cases hequals : hasEquals token with
  | false =>
    have hhead : token.head? ≠ some '=' := by
      intro hhead
      have hmem := List.mem_of_mem_head? hhead
      simp [hasEquals, hmem] at hequals
    simp [hhead, h]
  | true =>
    rw [key_isEmpty hequals]
    by_cases hhead : token.head? = some '=' <;> simp [hhead, h]

/-- The problem of a parameter is that it is not the first one. -/
theorem occurrenceProblem?_of_parameter (tokens : List (List Char)) (h : isArgument token = false) :
    occurrenceProblem? (tokens, token) =
      if isFirst (tokens, token) then none else some (.duplicateParameter (keyOf token)) := by
  have hhead : token.head? ≠ some '=' := by
    intro hhead
    simp [isArgument, hhead] at h
  simp [occurrenceProblem?, hhead, h]

/-- An argument is accounted for. -/
theorem Details.Accounts.addArgument (h : details.Accounts ρ bpm beatsPerBar tokens)
    (hargument : isArgument token = true) :
    (details.addArgument token).Accounts ρ bpm beatsPerBar (tokens ++ [token]) := by
  have hfirst : isFirst (tokens, token) = false := by simp [isFirst, hargument]
  have hcount : (keyless? token).toList.countP isDuplicate = 0 := by
    unfold keyless?
    split <;> rfl
  refine ⟨?_, ?_, fun key => ?_, h.distinct, ?_, ?_⟩
  · simp [Details.addArgument, h.args, hargument]
  · simpa [Details.addArgument, firsts_concat, hfirst] using h.params
  · simp [Details.addArgument, h.keys, hargument, or_and_right, exists_or]
  · rw [problems_concat, ← h.problems, occurrenceProblem?_of_argument tokens hargument]
    rfl
  · have hbefore := h.count
    simp only [Details.addArgument, List.length_append, List.length_singleton, List.countP_append,
      hcount]
    omega

/-- The key of a parameter is taken exactly if it is not the first one under it. -/
theorem Details.Accounts.mem_keys_iff (h : details.Accounts ρ bpm beatsPerBar tokens)
    (hargument : isArgument token = false) :
    storedKey token ∈ details.params.map (·.1) ↔ isFirst (tokens, token) = false := by
  rw [← Bool.not_eq_true, isFirst_iff hargument, not_not, h.keys]

/-- With one more parameter its key is among those of the parameters. -/
theorem Details.Accounts.keys_concat (h : details.Accounts ρ bpm beatsPerBar tokens)
    (hargument : isArgument token = false) (key : String) :
    (∃ other ∈ tokens ++ [token], isArgument other = false ∧ storedKey other = key) ↔
      key ∈ details.params.map (·.1) ∨ key = storedKey token := by
  simp only [h.keys, List.mem_append, List.mem_singleton, or_and_right, exists_or, exists_eq_left,
    hargument, true_and, eq_comm (a := key)]

/-- A parameter whose key is taken is accounted for: nothing of it is kept, and it is reported. -/
theorem Details.Accounts.repeated (h : details.Accounts ρ bpm beatsPerBar tokens)
    (hargument : isArgument token = false)
    (htaken : storedKey token ∈ details.params.map (·.1)) :
    Details.Accounts ρ bpm beatsPerBar (tokens ++ [token])
      { details with problems := details.problems ++ [.duplicateParameter (keyOf token)] } := by
  have hfirst := (h.mem_keys_iff hargument).1 htaken
  refine ⟨?_, ?_, fun key => ?_, h.distinct, ?_, ?_⟩
  · simp [h.args, hargument]
  · simpa [firsts_concat, hfirst] using h.params
  · rw [h.keys_concat hargument, or_iff_left_of_imp]
    rintro rfl
    exact htaken
  · rw [problems_concat, ← h.problems, occurrenceProblem?_of_parameter tokens hargument, hfirst]
    rfl
  · have hone : List.countP isDuplicate [.duplicateParameter (keyOf token)] = 1 := rfl
    have hbefore := h.count
    simp only [List.length_append, List.length_singleton, List.countP_append, hone]
    omega

/-- The first parameter under a key is accounted for: it is kept behind the others. -/
theorem Details.Accounts.kept (h : details.Accounts ρ bpm beatsPerBar tokens)
    (hargument : isArgument token = false)
    (hread : readParameter ρ bpm beatsPerBar (keyOf token) (rawOf token) = .ok stored)
    (hnew : stored.1 ∉ details.params.map (·.1)) :
    Details.Accounts ρ bpm beatsPerBar (tokens ++ [token])
      { details with params := details.params ++ [stored] } := by
  have hstored := storedKey_of_readParameter hread
  have hfirst : isFirst (tokens, token) = true := by
    rwa [hstored, h.mem_keys_iff hargument, Bool.not_eq_false] at hnew
  refine ⟨?_, ?_, fun key => ?_, ?_, ?_, ?_⟩
  · simp [h.args, hargument]
  · rw [firsts_concat, if_pos hfirst]
    exact List.rel_append h.params (.cons ⟨hstored, hread⟩ .nil)
  · rw [h.keys_concat hargument, List.map_append, List.mem_append, List.map_singleton,
      List.mem_singleton, hstored]
  · rw [List.map_append, List.map_singleton, ← List.concat_eq_append]
    exact h.distinct.concat hnew
  · rw [problems_concat, ← h.problems, occurrenceProblem?_of_parameter tokens hargument,
      if_pos hfirst, Option.toList_none, List.append_nil]
  · have hbefore := h.count
    simp only [List.length_append, List.length_singleton]
    omega

/-- One more token is accounted for. -/
theorem Details.Accounts.add (h : details.Accounts ρ bpm beatsPerBar tokens)
    (hadd : details.add ρ bpm beatsPerBar token = .ok details') :
    details'.Accounts ρ bpm beatsPerBar (tokens ++ [token]) := by
  have hargument (b : Bool) (hparameter : isParameter token = b) : isArgument token = !b := by
    rw [← hparameter, isParameter_eq, Bool.not_not]
  cases Details.adds_of_add hadd with
  | argument hparameter => exact h.addArgument (hargument false hparameter)
  | repeated hparameter hread htaken =>
    exact h.repeated (hargument true hparameter) (storedKey_of_readParameter hread ▸ htaken)
  | kept hparameter hread hnew => exact h.kept (hargument true hparameter) hread hnew

/-- The tokens after the head are accounted for. The induction is on the tokens from the last one, so
that the others are those that stand before it. -/
theorem accounts_of_foldlM
    (h : tokens.foldlM (Details.add ρ bpm beatsPerBar) .empty = .ok details) :
    details.Accounts ρ bpm beatsPerBar tokens := by
  induction tokens using List.reverseRecOn generalizing details with
  | nil =>
    obtain rfl := Except.ok.inj h
    exact ⟨rfl, .nil, by simp [Details.empty], List.nodup_nil, rfl, rfl⟩
  | append_singleton tokens token ih =>
    rw [List.foldlM_append] at h
    obtain ⟨before, hbefore, h⟩ := bind_eq_ok.1 h
    obtain ⟨after, hadd, h⟩ := bind_eq_ok.1 h
    obtain rfl := pure_eq_ok_iff.1 h
    exact (ih hbefore).add hadd

/-- Every token of a cue counts once. The tokens of the body are the head and the tokens after it.
Of these, those that are arguments are the arguments of the cue in order, and the others are its
parameters, of which the first one under each stored key is kept, with the value that it is read as.
A quote without a partner is reported once and first, and then, in the order of the tokens, each that
has no key in front of its equals sign and each that repeats a parameter. -/
theorem accounts_of_read {ρ : Rounding} {bpm beatsPerBar : Value} {body : List Char}
    {said : CueBody} (h : read ρ bpm beatsPerBar body = .ok said) :
    ∃ rest problems,
      IsHead (Token.split body) ⟨said.cue.category, said.cue.name, rest⟩ ∧
      Details.Accounts ρ bpm beatsPerBar rest ⟨said.cue.params, said.cue.args, problems⟩ ∧
      said.problems = (if body.count '"' % 2 = 1 then [.unterminatedQuote] else []) ++ problems := by
  obtain ⟨details, hdetails, h⟩ := bind_eq_ok.1 h
  obtain rfl := pure_eq_ok_iff.1 h
  refine ⟨(head (Token.split body)).rest, details.problems, isHead_head _,
    accounts_of_foldlM hdetails, ?_⟩
  simp only [Token.hasLoneQuote, decide_eq_true_eq]

/-- The body of a cue with a category, in which a token has no key, one has it in a quote, two start
on a beat, a duration is none and a quote has no partner. -/
def sampleBody : List Char :=
  "SFX \"crowd roar\" loud =x \"a=b\" Start_Beat=3 start=1.5 duration=long duration=2b \"".toList

/-- The body is accounted for: three arguments, three parameters with their values, one of them not
read as a duration, and three reports. -/
theorem accounts_of_read_sample : ∃ said rest problems,
    read .binary64 (.int 120) (.int 4) sampleBody = .ok said ∧
      Details.Accounts .binary64 (.int 120) (.int 4) rest
        ⟨said.cue.params, said.cue.args, problems⟩ ∧
      said.cue.args = ["loud", "=x", "a=b"] ∧
      said.cue.params = [("start_beats", .number (.real (.finite 3))), ("duration", .text "long"),
        ("duration_beats", .number (.real (.finite 2)))] ∧
      said.problems =
        [.unterminatedQuote, .parameterWithoutKey "=x", .duplicateParameter "start"] := by
  have hyields : yields (read .binary64 (.int 120) (.int 4) sampleBody) (fun said => decide
      (said.cue.args = ["loud", "=x", "a=b"] ∧
        said.cue.params = [("start_beats", .number (.real (.finite 3))), ("duration", .text "long"),
          ("duration_beats", .number (.real (.finite 2)))] ∧
        said.problems =
          [.unterminatedQuote, .parameterWithoutKey "=x", .duplicateParameter "start"])) = true := by
    decide +kernel
  obtain ⟨said, h, hsaid⟩ := exists_of_yields hyields
  obtain ⟨rest, problems, -, haccounts, -⟩ := accounts_of_read h
  exact ⟨said, rest, problems, h, haccounts, of_decide_eq_true hsaid⟩

end CueSheet.CueBody
