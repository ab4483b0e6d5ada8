import Gallery.Decimal.Reader
import Gallery.Tree.Change

/-!
# Manifests

A manifest lists the entries of a tree, one on a line. A line names the kind of the entry and
its path, from the working directory if the path does not begin with a slash, and for a file or
a link the time in nanoseconds and the content or the target. Fields are separated by a space,
and paths, contents and targets are written in hexadecimal. The first empty line ends the
manifest; a line that is not of this form adds nothing.
-/

namespace Gallery.Manifest

/-- The byte between two fields. -/
def space : UInt8 := 32

/-- The value of a hexadecimal digit. -/
def hexValue? (b : UInt8) : Option Nat :=
  let lower := lowerAscii b
  if 97 ≤ lower && lower ≤ 102 then some (lower.toNat - 87) else digitValue? b

/-- The bytes written by pairs of hexadecimal digits. -/
def unhex? : Bytes → Option Bytes
  | [] => some []
  | [_] => none
  | high :: low :: rest => do
    let high ← hexValue? high
    let low ← hexValue? low
    let bytes ← unhex? rest
    some (UInt8.ofNat (high * 16 + low) :: bytes)

/-- The integer of a decimal numeral, after a hyphen if it is negative. -/
def integer? : Bytes → Option Int
  | [] => none
  | b :: rest => do
    let (negative, digits) := if b = 45 then (true, rest) else (false, b :: rest)
    let magnitude := Decimal.ofDigits (← digits.mapM digitValue?)
    some (if negative then -(magnitude : Int) else magnitude)

/-- The tree with the entry of a line. -/
def addLine? (tree : Tree) (line : Bytes) : Option Tree := do
  match splitAtByte space line with
  | [kind, path] =>
    if kind = ascii "directory" then some (tree.makeDirectory (← unhex? path)) else none
  | [kind, path, time, body] =>
    let path ← unhex? path
    let time ← integer? time
    let body ← unhex? body
    if kind = ascii "file" then some (tree.write path body time)
    else if kind = ascii "link" then some (tree.makeLink path body time)
    else none
  | _ => none

/-- The tree that the manifest at the front of an input lists, and the rest of the input. -/
def read (input : Bytes) : Tree × Bytes :=
  let lines := splitAtByte newline input
  let listed := lines.takeWhile fun line => line ≠ []
  (listed.foldl (fun tree line => (addLine? tree line).getD tree) .empty,
    [newline].intercalate (lines.drop (listed.length + 1)))

end Gallery.Manifest
