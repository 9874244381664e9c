import CueSheet.Fault

/-!
# Text from bytes

A character is encoded in one to four bytes, the first of which says how many follow it and bounds
the next one, so that every character has one encoding and no code point without a character has
any. The first bytes that begin no character are a fault: as many as begin some character, or one if
none does.
-/

namespace CueSheet.Text

/-- What the first byte of a character says. -/
structure LeadByte where
  /-- How many bytes follow. -/
  following : Nat
  /-- The least value of the next byte. -/
  low : Nat
  /-- The greatest value of the next byte. -/
  high : Nat
  /-- The bits of the character in the first byte. -/
  bits : Nat

/-- Reads the first byte of a character. -/
def LeadByte.ofByte? (b : Nat) : Option LeadByte :=
  if b < 0x80 then some ⟨0, 0x80, 0xbf, b⟩
  else if b < 0xc2 then none
  else if b < 0xe0 then some ⟨1, 0x80, 0xbf, b - 0xc0⟩
  else if b = 0xe0 then some ⟨2, 0xa0, 0xbf, 0⟩
  else if b = 0xed then some ⟨2, 0x80, 0x9f, 0xd⟩
  else if b < 0xf0 then some ⟨2, 0x80, 0xbf, b - 0xe0⟩
  else if b = 0xf0 then some ⟨3, 0x90, 0xbf, 0⟩
  else if b < 0xf4 then some ⟨3, 0x80, 0xbf, b - 0xf0⟩
  else if b = 0xf4 then some ⟨3, 0x80, 0x8f, 4⟩
  else none

/-- Reads the bytes after the first one of a character, `taken` bytes after its start. The next of
them lies between `low` and `high`, and all later ones are arbitrary continuation bytes. -/
def readFollowing (bits taken low high : Nat) :
    Nat → List UInt8 → Except (EncodingFault.Cause × Nat) (Nat × List UInt8)
  | 0, bytes => .ok (bits, bytes)
  | _ + 1, [] => .error (.ending, taken)
  | following + 1, byte :: bytes =>
    if low ≤ byte.toNat ∧ byte.toNat ≤ high then
      readFollowing (bits * 0x40 + (byte.toNat - 0x80)) (taken + 1) 0x80 0xbf following bytes
    else .error (.continuation, taken)

/-- What is left after a character is no longer than what was there. -/
theorem readFollowing_length {bits taken low high following n : Nat} {bytes rest : List UInt8}
    (h : readFollowing bits taken low high following bytes = .ok (n, rest)) :
    rest.length ≤ bytes.length := by
  fun_induction readFollowing bits taken low high following bytes with
  | case1 => simp_all
  | case2 => simp at h
  | case3 bits taken low high following byte bytes hb ih =>
    have := ih h
    simp only [List.length_cons]
    omega
  | case4 => simp at h

/-- The characters of bytes of which the first is at a position. -/
def decodeFrom (position : Nat) (bytes : List UInt8) : Except EncodingFault (List Char) :=
  match bytes with
  | [] => .ok []
  | byte :: rest =>
    match LeadByte.ofByte? byte.toNat with
    | none => .error ⟨.start, byte.toNat, position, 1⟩
    | some lead =>
      match _h : readFollowing lead.bits 1 lead.low lead.high lead.following rest with
      | .error (cause, count) => .error ⟨cause, byte.toNat, position, count⟩
      | .ok (n, left) => do
        let chars ← decodeFrom (position + 1 + lead.following) left
        return Char.ofNat n :: chars
termination_by bytes.length
decreasing_by
  have := readFollowing_length _h
  simp only [List.length_cons]
  omega

/-- The characters of bytes. -/
def decode (bytes : List UInt8) : Except EncodingFault (List Char) := decodeFrom 0 bytes

end CueSheet.Text
