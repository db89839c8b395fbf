/-!
# UTF-8

Files and the standard input are bytes. `decode` reads them as UTF-8 and is
strict: no character may be written in more bytes than it needs, and surrogates
are no characters. Where the bytes go wrong, the error says from which byte on,
and how many of them cannot begin any character; if the bytes merely end too
early that number is missing.
-/

namespace StreamScript.Text

/-- **Why bytes are no UTF-8.** -/
structure Utf8Error where
  /-- The bytes before the fault. -/
  index : Nat
  /-- The bytes that cannot begin any character; none if more bytes might. -/
  length : Option Nat
deriving DecidableEq, Repr

/-- The wording of the error. -/
def Utf8Error.message (e : Utf8Error) : String :=
  match e.length with
  | some n =>
    "invalid utf-8 sequence of " ++ toString n ++ " bytes from index "
      ++ toString e.index
  | none => "incomplete utf-8 byte sequence from index " ++ toString e.index

/-- How many bytes follow a first byte, and the range of the first of those. -/
def followers? (b : UInt8) : Option (Nat × UInt8 × UInt8) :=
  if 0xC2 ≤ b && b ≤ 0xDF then some (1, 0x80, 0xBF)
  else if b == 0xE0 then some (2, 0xA0, 0xBF)
  else if b == 0xED then some (2, 0x80, 0x9F)
  else if 0xE1 ≤ b && b ≤ 0xEF then some (2, 0x80, 0xBF)
  else if b == 0xF0 then some (3, 0x90, 0xBF)
  else if b == 0xF4 then some (3, 0x80, 0x8F)
  else if 0xF1 ≤ b && b ≤ 0xF3 then some (3, 0x80, 0xBF)
  else none

/-- Counts the bytes that continue a character: up to `wanted`, the first of
them in a range of its own. The second component says whether the bytes ended
before that. -/
def continued (low high : UInt8) : Nat → List UInt8 → Nat × Bool
  | 0, _ => (0, false)
  | _ + 1, [] => (0, true)
  | wanted + 1, b :: rest =>
    if low ≤ b && b ≤ high then
      let (n, ended) := continued 0x80 0xBF wanted rest
      (n + 1, ended)
    else (0, false)

/-- The code point that a first byte and its followers count. -/
def codePoint (b : UInt8) (followers : List UInt8) : Nat :=
  followers.foldl (fun n c => n * 64 + (c.toNat - 0x80))
    (b.toNat % Nat.pow 2 (6 - followers.length))

/-- Reads bytes from the given index on; `done` is what has been read, in
reverse. -/
def decodeFrom (index : Nat) (done : List Char) (bytes : List UInt8) :
    Except Utf8Error (List Char) :=
  match bytes with
  | [] => .ok done.reverse
  | b :: rest =>
    if b < 0x80 then decodeFrom (index + 1) (Char.ofNat b.toNat :: done) rest
    else
      match followers? b with
      | none => .error ⟨index, some 1⟩
      | some (wanted, low, high) =>
        let (n, ended) := continued low high wanted rest
        if ended then .error ⟨index, none⟩
        else if n < wanted then .error ⟨index, some (n + 1)⟩
        else
          decodeFrom (index + 1 + wanted)
            (Char.ofNat (codePoint b (rest.take wanted)) :: done)
            (rest.drop wanted)
termination_by bytes.length
decreasing_by
  all_goals simp only [List.length_cons, List.length_drop]; omega

/-- **Reads bytes as UTF-8.** -/
def decode (bytes : List UInt8) : Except Utf8Error String :=
  (decodeFrom 0 [] bytes).map String.ofList

/-- The error of bytes that are no UTF-8. -/
def utf8Error? (bytes : List UInt8) : Option Utf8Error :=
  match decode bytes with
  | .ok _ => none
  | .error e => some e

example :
    (decode [0x61, 0xC3, 0xA9, 0xE4, 0xB8, 0x96, 0xF0, 0x9F, 0x8E, 0x89]).toOption
    = some "aé世🎉" := by decide +kernel

example : utf8Error? [0x61, 0xff] = some ⟨1, some 1⟩ ∧
    utf8Error? [0xE4, 0xB8] = some ⟨0, none⟩ ∧ utf8Error? [0xF0, 0x9F, 0x41]
    = some ⟨0, some 2⟩ := by decide +kernel

/-- A character is written in as few bytes as it needs, no surrogate is written
at all, and nothing lies behind the last character. -/
example : utf8Error? [0xC0, 0x80] = some ⟨0, some 1⟩
    ∧ utf8Error? [0xE0, 0x80, 0x80] = some ⟨0, some 1⟩
    ∧ utf8Error? [0xED, 0xA0, 0x80] = some ⟨0, some 1⟩
    ∧ utf8Error? [0xF4, 0x8F, 0xBF, 0xBF] = none
    ∧ utf8Error? [0xF4, 0x90, 0x80, 0x80] = some ⟨0, some 1⟩ := by
    decide +kernel

end StreamScript.Text
