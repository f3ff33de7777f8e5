import NetRedact.Address.Ipv4

/-!
# Colon groups

An IPv6 literal is eight groups of one to four hexadecimal digits joined by colons.  One `::` may
stand for a run of one or more zero groups, and the last two groups may be written as a dotted
quad.  The module reads every such spelling and writes two of them: the full one, with eight groups
of four digits, and the short one, in which the first longest run of two or more zero groups is
compressed.
-/

namespace NetRedact.Ipv6

open NetRedact.Text

/-- A group at the front of a text: one to four hexadecimal digits that no fifth one follows. -/
def readGroup (cs : List Char) : Option (UInt16 × List Char) :=
  let (digits, rest) := cs.span isHexDigit
  if digits.isEmpty || decide (4 < digits.length) then none
  else (hexNumber? digits).map fun n => (UInt16.ofNat n, rest)

/-- What follows the separator before a group.  The first group of a run has none. -/
def afterSeparator (first : Bool) (cs : List Char) : Option (List Char) :=
  match first, cs with
  | true, _ => some cs
  | false, ':' :: rest => some rest
  | false, _ => none

/-- Two octets as one group. -/
def groupOf (high low : UInt8) : UInt16 :=
  high.toUInt16 * 256 + low.toUInt16

/-- The octets of a group. -/
def octetsOf (group : UInt16) : List UInt8 :=
  [(group / 256).toUInt8, (group % 256).toUInt8]

/-- The two groups that a dotted quad stands for. -/
def groupsOfQuad (quad : Octets 4) : List UInt16 :=
  [groupOf quad[0] quad[1], groupOf quad[2] quad[3]]

/-- A run of groups, as many as there are but at most `limit`; whether it ended in a dotted quad;
and the rest.  A quad is tried before a group wherever two groups may still follow. -/
def readGroups (first : Bool) : Nat → List Char → List UInt16 × Bool × List Char
  | 0, cs => ([], false, cs)
  | limit + 1, cs =>
    match afterSeparator first cs with
    | none => ([], false, cs)
    | some body =>
      match (if 1 ≤ limit then Ipv4.readFirst body else none) with
      | some (quad, rest) => (groupsOfQuad quad, true, rest)
      | none =>
        match readGroup body with
        | none => ([], false, cs)
        | some (group, rest) =>
          let (groups, quad, rest) := readGroups false limit rest
          (group :: groups, quad, rest)

/-- The octets of eight groups. -/
def ofGroups? (groups : List UInt16) : Option (Octets 16) :=
  Octets.ofList? 16 (groups.flatMap octetsOf)

/-- The eight groups of an address. -/
def groups (octets : Octets 16) : List UInt16 :=
  (List.finRange 8).map fun i => groupOf octets[2 * i.val] octets[2 * i.val + 1]

/-- A literal at the front of a text, and the rest.  Fewer than eight groups must be followed by
`::`, which takes the place of at least one group, and no quad may stand before it. -/
def readFirst (cs : List Char) : Option (Octets 16 × List Char) :=
  let (front, quad, rest) := readGroups true 8 cs
  if front.length = 8 then (ofGroups? front).map (·, rest)
  else if quad then none
  else match rest with
    | ':' :: ':' :: rest =>
      let (back, _, rest) := readGroups true (7 - front.length) rest
      let zeros := List.replicate (8 - front.length - back.length) 0
      (ofGroups? (front ++ zeros ++ back)).map (·, rest)
    | _ => none

/-- The address that a text spells as a whole. -/
def read? (cs : List Char) : Option (Octets 16) :=
  match readFirst cs with
  | some (octets, []) => some octets
  | _ => none

/-- The full literal: eight groups of four lowercase digits. -/
def renderFull (octets : Octets 16) : List Char :=
  joinWith [':'] ((groups octets).map fun g => hexBytes (octetsOf g))

/-- The length of the run of zero groups at the front. -/
def zeroRun (gs : List UInt16) : Nat :=
  (gs.takeWhile (· == 0)).length

/-- Where the first longest run of zero groups starts, and its length. -/
def longestZeroRun (gs : List UInt16) : Nat × Nat :=
  (List.range gs.length).foldl
    (fun best i => let n := zeroRun (gs.drop i); if best.2 < n then (i, n) else best) (0, 0)

/-- Groups joined by colons, without leading zeros. -/
def renderGroups (gs : List UInt16) : List Char :=
  joinWith [':'] (gs.map fun g => Nat.toDigits 16 g.toNat)

/-- The short literal: an address that embeds an IPv4 one after ten zero octets and two of 255 ends
in a dotted quad; otherwise the first longest run of two or more zero groups becomes `::`. -/
def renderShort (octets : Octets 16) : List Char :=
  match groups octets with
  | [0, 0, 0, 0, 0, 0xFFFF, _, _] =>
    "::ffff:".toList ++ Ipv4.render #v[octets[12], octets[13], octets[14], octets[15]]
  | gs =>
    let (start, length) := longestZeroRun gs
    if 2 ≤ length then
      renderGroups (gs.take start) ++ [':', ':'] ++ renderGroups (gs.drop (start + length))
    else renderGroups gs

end NetRedact.Ipv6
