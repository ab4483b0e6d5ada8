import Gallery.Utf8

/-!
# TIFF directories

A TIFF file begins with the order of its bytes and the place of its first directory. A
directory is a sequence of entries; an entry has a tag, a type, and values that stand in the
entry itself if they fit in there and elsewhere in the file if they do not. A large file
writes offsets and counts in eight bytes, an ordinary one in four.

What a tag can do with the values of its entry depends on their type and on whether there is
one value or a list of them. The readings at the end of this module say how.
-/

namespace Gallery.Tiff

/-- The order of the bytes of a number. -/
inductive ByteOrder where
  | little
  | big
  deriving DecidableEq

/-- The number written by bytes. -/
def ByteOrder.number : ByteOrder → Bytes → Nat
  | .little, bytes => ofLittleEndian bytes
  | .big, bytes => ofBigEndian bytes

/-- The number of some bytes at an offset. -/
def ByteOrder.number? (order : ByteOrder) (bytes : Bytes) (offset length : Nat) : Option Nat :=
  (slice? bytes offset length).map order.number

/-- How a file writes its numbers: the order of their bytes, and whether it is large. -/
structure Encoding where
  order : ByteOrder
  isLarge : Bool

namespace Encoding

/-- The length of an offset, of the count of the values of an entry, and of the room for
values in an entry. -/
def wordLength (encoding : Encoding) : Nat := if encoding.isLarge then 8 else 4

/-- The length of the count of entries. -/
def countLength (encoding : Encoding) : Nat := if encoding.isLarge then 8 else 2

/-- The length of an entry: tag, type, count and room for values. -/
def entryLength (encoding : Encoding) : Nat := 4 + 2 * encoding.wordLength

end Encoding

/-- The length of an entry of an unknown type, in files of either kind. -/
def unknownEntryLength : Nat := 12

/-- The type of a value. -/
inductive ValueType where
  | byte
  | text
  | short
  | long
  | fraction
  | signedByte
  | undefined
  | signedShort
  | signedLong
  | signedFraction
  | float
  | double
  | directory
  | wide
  | signedWide
  | wideDirectory
  deriving DecidableEq, Repr

/-- The type that a number stands for, if it is known. -/
def ValueType.ofNumber? : Nat → Option ValueType
  | 1 => some .byte
  | 2 => some .text
  | 3 => some .short
  | 4 => some .long
  | 5 => some .fraction
  | 6 => some .signedByte
  | 7 => some .undefined
  | 8 => some .signedShort
  | 9 => some .signedLong
  | 10 => some .signedFraction
  | 11 => some .float
  | 12 => some .double
  | 13 => some .directory
  | 16 => some .wide
  | 17 => some .signedWide
  | 18 => some .wideDirectory
  | _ => none

/-- The number of bytes of a value. -/
def ValueType.length : ValueType → Nat
  | .byte | .text | .signedByte | .undefined => 1
  | .short | .signedShort => 2
  | .long | .signedLong | .float | .directory => 4
  | .fraction | .signedFraction | .double | .wide | .signedWide | .wideDirectory => 8

/-- An entry of a directory. The field holds the values or tells where they are. -/
structure Entry where
  tag : Nat
  type : ValueType
  count : Nat
  field : Bytes

/-- The entry that begins some bytes, unless its type is unknown, and what is behind it. -/
def Encoding.entry? (encoding : Encoding) (bytes : Bytes) : Option (Option Entry × Bytes) := do
  let order := encoding.order
  let word := encoding.wordLength
  let tag ← order.number? bytes 0 2
  let type ← order.number? bytes 2 2
  match ValueType.ofNumber? type with
  | some type =>
    let count ← order.number? bytes 4 word
    let field ← slice? bytes (4 + word) word
    some (some ⟨tag, type, count, field⟩, bytes.drop encoding.entryLength)
  | none =>
    let _ ← slice? bytes 0 unknownEntryLength
    some (none, bytes.drop unknownEntryLength)

/-- The entries of known types among so many that begin some bytes, and what is behind them. -/
def Encoding.entries? (encoding : Encoding) : Nat → Bytes → Option (List Entry × Bytes)
  | 0, bytes => some ([], bytes)
  | count + 1, bytes => do
    let (entry, bytes) ← encoding.entry? bytes
    let (entries, bytes) ← encoding.entries? count bytes
    some (entry.toList ++ entries, bytes)

/-- A directory of a file. -/
structure Directory where
  content : Bytes
  encoding : Encoding
  entries : List Entry

/-- The directory at an offset. The offset of the next directory must be there behind it and
must be another one. -/
def Encoding.directory? (encoding : Encoding) (content : Bytes) (offset : Nat) :
    Option Directory := do
  let count ← encoding.order.number? content offset encoding.countLength
  let (entries, behind) ← encoding.entries? count (content.drop (offset + encoding.countLength))
  let next ← encoding.order.number? behind 0 encoding.wordLength
  if next = offset then none else some ⟨content, encoding, entries⟩

/-- A value. An octet is a number of which nothing is known but its byte, and a place is the
offset of a directory; values that no tag here takes are told apart no further. -/
inductive Value where
  | octet (n : Nat)
  | short (n : Nat)
  | long (n : Nat)
  | place (n : Nat)
  | fraction (numerator denominator : Nat)
  | other

/-- The value that some bytes write, alone or in a list. A byte of a list is a plain number. -/
def ByteOrder.value (order : ByteOrder) (type : ValueType) (isAlone : Bool) (bytes : Bytes) :
    Value :=
  let n := order.number bytes
  match type with
  | .byte => if isAlone then .octet n else .long n
  | .undefined => .octet n
  | .short => .short n
  | .long | .wide => .long n
  | .directory | .wideDirectory => .place n
  | .fraction => .fraction (order.number (bytes.take 4)) (order.number (bytes.drop 4))
  | _ => .other

/-- The values of a list, each of so many bytes. -/
def ByteOrder.values (order : ByteOrder) (type : ValueType) : Nat → Bytes → List Value
  | 0, _ => []
  | count + 1, bytes =>
    order.value type false (bytes.take type.length) ::
      order.values type count (bytes.drop type.length)

/-- The values of an entry: one, a list, or a text as the numbers of its characters. -/
inductive Values where
  | one (value : Value)
  | list (values : List Value)
  | text (characters : List Nat)

/-- The bytes that are left without zeros at either end. -/
def trimZeros (bytes : Bytes) : Bytes :=
  ((bytes.dropWhile (· = 0)).reverse.dropWhile (· = 0)).reverse

/-- The text in the field of an entry. It is ASCII and ends in zero; zeros at either end are
not part of it. -/
def textInField? (bytes : Bytes) : Option Values :=
  if bytes.all (· < 0x80) && bytes.getLast? = some 0 then
    some (.text ((trimZeros bytes).map UInt8.toNat))
  else none

/-- The text elsewhere in a file. It is UTF-8 up to the first zero. -/
def textElsewhere? (bytes : Bytes) : Option Values :=
  (Utf8.decode? (bytes.takeWhile (· ≠ 0))).map fun characters =>
    .text (characters.map Char.toNat)

/-- The values that some bytes hold, which are the field of an entry or elsewhere. -/
def ByteOrder.valuesIn? (order : ByteOrder) (entry : Entry) (isField : Bool) (bytes : Bytes) :
    Option Values :=
  if entry.type = .text then if isField then textInField? bytes else textElsewhere? bytes
  else if entry.count = 1 then some (.one (order.value entry.type true bytes))
  else some (.list (order.values entry.type entry.count bytes))

namespace Directory

/-- The entry for a tag; of several it is the last. -/
def entryFor? (directory : Directory) (tag : Nat) : Option Entry :=
  directory.entries.reverse.find? fun entry => entry.tag = tag

/-- Whether there is an entry for a tag. -/
def has (directory : Directory) (tag : Nat) : Bool := (directory.entryFor? tag).isSome

/-- The values for a tag, if they are there. No values are an empty list of any type. -/
def values? (directory : Directory) (tag : Nat) : Option Values := do
  let entry ← directory.entryFor? tag
  let length := entry.count * entry.type.length
  let order := directory.encoding.order
  if entry.count = 0 then some (.list [])
  else if length ≤ directory.encoding.wordLength then
    order.valuesIn? entry true (entry.field.take length)
  else
    order.valuesIn? entry false (← slice? directory.content (order.number entry.field) length)

end Directory

/-- A number, also if it is a place. -/
def Value.number? : Value → Option Nat
  | .octet n | .short n | .long n | .place n => some n
  | _ => none

/-- A number of up to two bytes that is no place. -/
def Value.short? : Value → Option Nat
  | .octet n | .short n | .long n => if n < 0x10000 then some n else none
  | _ => none

/-- An octet. -/
def Value.octet? : Value → Option Nat
  | .octet n => some n
  | _ => none

/-- A single number of up to two bytes. -/
def Values.short? : Values → Option Nat
  | .one value => value.short?
  | _ => none

/-- A single number of up to four bytes. -/
def Values.long? : Values → Option Nat
  | .one value => value.number?.bind fun n => if n < 0x100000000 then some n else none
  | _ => none

/-- A list of numbers: one or more of them, the two of a fraction, or those of the characters
of a text. -/
def Values.numbers? : Values → Option (List Nat)
  | .one (.fraction numerator denominator) => some [numerator, denominator]
  | .one value => value.number?.map fun n => [n]
  | .list values => values.mapM Value.number?
  | .text characters => some characters

/-- A list of numbers of up to two bytes. A single one must be written in no more. -/
def Values.shorts? : Values → Option (List Nat)
  | .one (.octet n) | .one (.short n) => some [n]
  | .list values => values.mapM Value.short?
  | _ => none

/-- A list of octets. -/
def Values.octets? : Values → Option (List Nat)
  | .one value => value.octet?.map fun n => [n]
  | .list values => values.mapM Value.octet?
  | _ => none

namespace Directory

/-- A reading of the values for a tag, or something else if the tag is missing. -/
def orElse? {α : Type} (directory : Directory) (reading : Values → Option α) (tag : Nat)
    (otherwise : α) : Option α :=
  if directory.has tag then (directory.values? tag).bind reading else some otherwise

/-- The single number of up to two bytes for a tag. -/
def short? (directory : Directory) (tag : Nat) : Option Nat :=
  (directory.values? tag).bind Values.short?

/-- The single number of up to four bytes for a tag. -/
def long? (directory : Directory) (tag : Nat) : Option Nat :=
  (directory.values? tag).bind Values.long?

/-- The numbers for a tag. -/
def numbers? (directory : Directory) (tag : Nat) : Option (List Nat) :=
  (directory.values? tag).bind Values.numbers?

end Directory

end Gallery.Tiff
