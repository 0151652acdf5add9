import FlightRecorder.Wire.Bytes

/-!
# Text in bytes that may not be text

Info lines carry names typed by people, in whatever encoding their tools used. They are read as
UTF-8, and each longest stretch of bytes that cannot be continued to a character becomes one
replacement character.
-/

namespace FlightRecorder

/-- Number of bytes of a text in UTF-8. -/
def utf8Size (text : List Char) : Nat := text.foldr (fun c size => c.utf8Size + size) 0

/-- Stands for bytes that encode no character. -/
def replacementChar : Char := '\uFFFD'

/-- Every byte of a character but the first lies in this range. -/
def isContinuation (b : UInt8) : Bool := 0x80 ≤ b && b ≤ 0xBF

/-- Number of bytes of the character that begins with this byte; `0` if none does. -/
def characterWidth (first : UInt8) : Nat :=
  if first ≤ 0x7F then 1
  else if 0xC2 ≤ first && first ≤ 0xDF then 2
  else if 0xE0 ≤ first && first ≤ 0xEF then 3
  else if 0xF0 ≤ first && first ≤ 0xF4 then 4
  else 0

/-- Whether a second byte may follow: no overlong form, no surrogate, nothing past the last
character. -/
def mayFollow (first second : UInt8) : Bool :=
  if first = 0xE0 then 0xA0 ≤ second && second ≤ 0xBF
  else if first = 0xED then 0x80 ≤ second && second ≤ 0x9F
  else if first = 0xF0 then 0x90 ≤ second && second ≤ 0xBF
  else if first = 0xF4 then 0x80 ≤ second && second ≤ 0x8F
  else isContinuation second

/-- The bits of a continuation byte that belong to the character. -/
def payloadBits (b : UInt8) : Nat := b.toNat % 64

/-- Reads the rest of a character of two bytes. -/
def readTwo (first : UInt8) : Bytes → Char × Bytes
  | second :: rest =>
    if isContinuation second then
      (Char.ofNat (first.toNat % 32 * 64 + payloadBits second), rest)
    else (replacementChar, second :: rest)
  | [] => (replacementChar, [])

/-- Reads the rest of a character of three bytes. -/
def readThree (first : UInt8) : Bytes → Char × Bytes
  | second :: rest =>
    if mayFollow first second then
      match rest with
      | third :: rest =>
        if isContinuation third then
          (Char.ofNat (first.toNat % 16 * 4096 + payloadBits second * 64 + payloadBits third), rest)
        else (replacementChar, third :: rest)
      | [] => (replacementChar, [])
    else (replacementChar, second :: rest)
  | [] => (replacementChar, [])

/-- Reads the rest of a character of four bytes. -/
def readFour (first : UInt8) : Bytes → Char × Bytes
  | second :: rest =>
    if mayFollow first second then
      match rest with
      | third :: rest =>
        if isContinuation third then
          match rest with
          | fourth :: rest =>
            if isContinuation fourth then
              (Char.ofNat (first.toNat % 8 * 262144 + payloadBits second * 4096
                + payloadBits third * 64 + payloadBits fourth), rest)
            else (replacementChar, fourth :: rest)
          | [] => (replacementChar, [])
        else (replacementChar, third :: rest)
      | [] => (replacementChar, [])
    else (replacementChar, second :: rest)
  | [] => (replacementChar, [])

/-- Reads the character that begins with `first`, or one replacement character. -/
def readCharacter (first : UInt8) (rest : Bytes) : Char × Bytes :=
  match characterWidth first with
  | 1 => (Char.ofNat first.toNat, rest)
  | 2 => readTwo first rest
  | 3 => readThree first rest
  | 4 => readFour first rest
  | _ => (replacementChar, rest)

/-- Reading a character uses its first byte, so the rest is no longer than before. -/
theorem length_readCharacter_le (first : UInt8) (rest : Bytes) :
    (readCharacter first rest).2.length ≤ rest.length := by
  unfold readCharacter
  split
  · exact Nat.le_refl _
  · unfold readTwo
    repeat' split
    all_goals simp
  · unfold readThree
    repeat' split
    all_goals (simp; try omega)
  · unfold readFour
    repeat' split
    all_goals (simp; try omega)
  · exact Nat.le_refl _

/-- Reads characters in front of those already read, latest first. -/
def decodeOnto (earlier : List Char) : Bytes → List Char
  | [] => earlier.reverse
  | first :: rest =>
    decodeOnto ((readCharacter first rest).1 :: earlier) (readCharacter first rest).2
termination_by bytes => bytes.length
decreasing_by
  have := length_readCharacter_le first rest
  simp only [List.length_cons]
  omega

/-- The text in a byte string. -/
def decodeText (bytes : Bytes) : List Char := decodeOnto [] bytes

/-- A text without the null characters at its end. -/
def trimNulls (text : List Char) : List Char :=
  (text.reverse.dropWhile (· = '\x00')).reverse

end FlightRecorder
