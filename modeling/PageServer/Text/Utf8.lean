/-
# UTF-8

Bytes of a text, and texts of bytes. Reading looks at one byte sequence at a
time; a sequence that breaks off is one unit, so that lossy reading puts one
replacement character where strict reading fails.
-/
import PageServer.Text.Basic

namespace PageServer

/-- A string of bytes. -/
abbrev Bytes := List UInt8

namespace Utf8

/-- The bytes of a text. -/
def encode (t : Text) : Bytes := t.flatMap String.utf8EncodeChar

/-- The number of bytes of a text. -/
def size : Text → Nat
  | [] => 0
  | c :: rest => c.utf8Size + size rest

/-- The character that stands for a byte sequence that is no character. -/
def replacement : Char := '\uFFFD'

/-- Whether a byte continues a sequence. -/
def continues (b : UInt8) : Bool := 0x80 ≤ b && b ≤ 0xBF

/-- Whether a byte may follow `lead` in a sequence of three: no longer form than needed, and no
surrogate. -/
def secondOfThree (lead b : UInt8) : Bool :=
  if lead = 0xE0 then 0xA0 ≤ b && b ≤ 0xBF
  else if lead = 0xED then 0x80 ≤ b && b ≤ 0x9F
  else continues b

/-- Whether a byte may follow `lead` in a sequence of four: no longer form than needed, and
nothing beyond the last code point. -/
def secondOfFour (lead b : UInt8) : Bool :=
  if lead = 0xF0 then 0x90 ≤ b && b ≤ 0xBF
  else if lead = 0xF4 then 0x80 ≤ b && b ≤ 0x8F
  else continues b

/-- The low six bits of a continuing byte. -/
def payload (b : UInt8) : Nat := b.toNat % 64

/-- The character of the sequence that starts with `lead`, and how many of the bytes after it
belong to the sequence. Without a character these are the bytes that could still belong to
one. -/
def sequence (lead : UInt8) (rest : Bytes) : Option Char × Nat :=
  if lead < 0x80 then (some (Char.ofNat lead.toNat), 0)
  else if 0xC2 ≤ lead && lead ≤ 0xDF then
    match rest with
    | b :: _ =>
      if continues b then (some (Char.ofNat (lead.toNat % 32 * 64 + payload b)), 1)
      else (none, 0)
    | [] => (none, 0)
  else if 0xE0 ≤ lead && lead ≤ 0xEF then
    match rest with
    | b :: after =>
      if secondOfThree lead b then
        match after with
        | c :: _ =>
          if continues c then
            (some (Char.ofNat (lead.toNat % 16 * 4096 + payload b * 64 + payload c)), 2)
          else (none, 1)
        | [] => (none, 1)
      else (none, 0)
    | [] => (none, 0)
  else if 0xF0 ≤ lead && lead ≤ 0xF4 then
    match rest with
    | b :: after =>
      if secondOfFour lead b then
        match after with
        | c :: after =>
          if continues c then
            match after with
            | d :: _ =>
              if continues d then
                (some (Char.ofNat (lead.toNat % 8 * 262144 + payload b * 4096 + payload c * 64
                  + payload d)), 3)
              else (none, 2)
            | [] => (none, 2)
          else (none, 1)
        | [] => (none, 1)
      else (none, 0)
    | [] => (none, 0)
  else (none, 0)

/-- Reads sequence by sequence, after leaving out the rest of the last one; `none` stands for a
sequence that breaks off. -/
def sequencesFrom : Nat → Bytes → List (Option Char)
  | _, [] => []
  | skip + 1, _ :: rest => sequencesFrom skip rest
  | 0, lead :: rest =>
    let (char, size) := sequence lead rest
    char :: sequencesFrom size rest

/-- The characters of the byte sequences, `none` for one that breaks off. -/
def sequences (bytes : Bytes) : List (Option Char) := sequencesFrom 0 bytes

/-- The text of valid bytes. -/
def decode? (bytes : Bytes) : Option Text := (sequences bytes).mapM id

/-- The text of any bytes, with a replacement character for each sequence that breaks off. -/
def decodeLossy (bytes : Bytes) : Text :=
  (sequences bytes).map fun c => c.getD replacement

end Utf8
end PageServer
