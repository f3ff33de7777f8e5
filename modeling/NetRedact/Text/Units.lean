/-!
# Byte lengths and byte offsets

A text is a list of characters; places in it are byte offsets into its UTF-8 form.  This module
gives the byte length of a text and cuts a text at a byte offset.  A cut that falls inside a
character has no result in the checked form and stops before that character in the total one.
-/

namespace NetRedact.Text

/-- The length of the UTF-8 form in bytes. -/
def byteLength (cs : List Char) : Nat :=
  cs.foldl (fun n c => n + c.utf8Size) 0

/-- The characters `taken` put back in order, followed by the longest part of the text that fits
into `bytes` bytes, and what is left. -/
def splitBytesAfter (taken : List Char) (bytes : Nat) : List Char → List Char × List Char
  | [] => (taken.reverse, [])
  | c :: rest =>
    if c.utf8Size ≤ bytes then splitBytesAfter (c :: taken) (bytes - c.utf8Size) rest
    else (taken.reverse, c :: rest)

/-- The longest front part of the text that fits into `bytes` bytes, and the rest. -/
def splitBytes (bytes : Nat) (cs : List Char) : List Char × List Char :=
  splitBytesAfter [] bytes cs

/-- The part of the text between two byte offsets, if both lie on character boundaries of the text
and in order. -/
def slice? (start stop : Nat) (cs : List Char) : Option (List Char) :=
  if start ≤ stop then
    let (front, rest) := splitBytes start cs
    let (middle, _) := splitBytes (stop - start) rest
    if byteLength front = start ∧ byteLength middle = stop - start then some middle else none
  else none

/-- Joins texts with a separator between each two neighbours. -/
def joinWith (separator : List Char) : List (List Char) → List Char
  | [] => []
  | head :: tail => head ++ tail.flatMap (separator ++ ·)

end NetRedact.Text
