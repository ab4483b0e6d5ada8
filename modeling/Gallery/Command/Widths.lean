import Gallery.Blank
import Gallery.Decimal.Reader
import Gallery.Utf8

/-!
# Widths on the standard input

Every line holds one width, with white space around it or not. A line that holds no number
is passed over. Reading stops at the first line that is not well-formed UTF-8.
-/

namespace Gallery.Command

/-- The bytes of a text that is nothing but ASCII. -/
def asciiBytes? (text : List Char) : Option Bytes :=
  text.mapM fun c => if c.toNat < 128 then some (UInt8.ofNat c.toNat) else none

/-- The width on a line. -/
def lineWidth? (line : Bytes) : Option Float :=
  (Utf8.decode? line).bind fun text => (asciiBytes? (trim text)).bind Decimal.read?

/-- The widths on the lines of an input. -/
def widths (input : Bytes) : List Float :=
  ((splitAtByte newline input).takeWhile Utf8.isValid).filterMap lineWidth?

end Gallery.Command
