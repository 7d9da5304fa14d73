/-! Reading bytes as UTF-8. Strict reading refuses anything else; lenient
reading puts U+FFFD for each longest sequence that starts like a character and
is not one. -/
namespace ImagePipeline.Text

/-- What the byte after a lead byte may be, and how many bytes follow in all. -/
structure Tail where
  low : UInt8
  high : UInt8
  count : Nat

def tailOf? (lead : UInt8) : Option Tail :=
  if 0xC2 ≤ lead ∧ lead ≤ 0xDF then some ⟨0x80, 0xBF, 1⟩
  else if lead = 0xE0 then some ⟨0xA0, 0xBF, 2⟩
  else if lead = 0xED then some ⟨0x80, 0x9F, 2⟩
  else if 0xE1 ≤ lead ∧ lead ≤ 0xEF then some ⟨0x80, 0xBF, 2⟩
  else if lead = 0xF0 then some ⟨0x90, 0xBF, 3⟩
  else if lead = 0xF4 then some ⟨0x80, 0x8F, 3⟩
  else if 0xF1 ≤ lead ∧ lead ≤ 0xF3 then some ⟨0x80, 0xBF, 3⟩
  else none

/-- Reads the characters of a byte list; `pending` is the value of the started
character with the range of its next byte and the number of bytes it lacks. -/
def lenientChars (pending : Option (Nat × Tail)) : List UInt8 → List Char
  | [] => if pending.isSome then ['\ufffd'] else []
  | b :: bs =>
    let fresh : List Char :=
      if b < 0x80 then Char.ofNat b.toNat :: lenientChars none bs
      else match tailOf? b with
        | some tail =>
          let leadBits := if tail.count = 1 then b.toNat % 32
            else if tail.count = 2 then b.toNat % 16 else b.toNat % 8
          lenientChars (some (leadBits, tail)) bs
        | none => '\ufffd' :: lenientChars none bs
    match pending with
    | none => fresh
    | some (value, tail) =>
      if tail.low ≤ b ∧ b ≤ tail.high then
        let value := value * 64 + b.toNat % 64
        if tail.count = 1 then Char.ofNat value :: lenientChars none bs
        else lenientChars (some (value, ⟨0x80, 0xBF, tail.count - 1⟩)) bs
      else '\ufffd' :: fresh

def decodeLenient (bytes : ByteArray) : String :=
  match String.fromUTF8? bytes with
  | some s => s
  | none => String.ofList (lenientChars none bytes.toList)

end ImagePipeline.Text
