/-
# Framing

Where the header of a message ends and how long its body is, told from the
bytes read so far.

* `headerEnd?`: where the body starts
* `declaredLength`: the length of the body by the header
* `progress`: whether a request is complete
-/
import PageServer.Number.Integer
import PageServer.Text.Line
import PageServer.Text.Lower
import PageServer.Text.Utf8

namespace PageServer.Http

/-- The end of a line. -/
def lineEnd : Text := ['\r', '\n']

/-- The number of bytes up to the end of the first empty line, where the body starts. -/
def headerEnd? : Bytes → Option Nat
  | [] => none
  | b :: rest =>
    if [0x0D, 0x0A, 0x0D, 0x0A] <+: b :: rest then some 4
    else (headerEnd? rest).map fun n => n + 1

/-- A length as a header gives it: one that is too large to tell counts as the largest, and a
text that is no length counts as zero. -/
def readLength (value : Text) : Nat :=
  match Number.readSize? value with
  | some n => n
  | none => if (Number.readNat? value).isSome then Number.maxSize else 0

/-- The length of the body by the first header line that gives it, and zero without one. -/
def declaredLength (head : Bytes) : Nat :=
  let entries := (Text.lines (Utf8.decodeLossy head)).filterMap (Text.cut ':')
  match entries.find? fun entry => Text.sameLetters (Text.trim entry.1) "content-length" with
  | some entry => readLength (Text.trim entry.2)
  | none => 0

/-- How far the reading of a request has come. -/
inductive Progress where
  /-- More bytes have to come. -/
  | incomplete
  /-- The header and the whole body are there. -/
  | complete
  /-- The header, or the header and the body it declares, are longer than the limit. -/
  | tooLarge
  deriving DecidableEq, Repr

/-- How far the reading of a request has come, with at most `limit` bytes for all of it. -/
def progress (received : Bytes) (limit : Nat) : Progress :=
  match headerEnd? received with
  | some size =>
    let length := declaredLength (received.take size)
    if limit < size ∨ limit - size < length then .tooLarge
    else if size + length ≤ received.length then .complete
    else .incomplete
  | none => if limit < received.length then .tooLarge else .incomplete

end PageServer.Http
