import Gallery.Decimal.Reader
import Gallery.Layout
import Gallery.Output.Format
import Gallery.Scan.Scanner

/-!
# Command-line arguments

The arguments name one directory and settings in any order. They are read from left to right
and the first argument that is wrong, or that asks for the version or for help, decides the
outcome. A setting takes its value from the same argument after an equals sign, or from the
next argument, which then may not begin with a hyphen unless it is nothing but one. After an
argument of two hyphens everything names the directory. Only the width may be set more than
once.
-/

namespace Gallery.Command

/-- A setting made by arguments. -/
inductive Setting where
  | directory (path : Bytes)
  | width (value : Float)
  | inputWidths
  | format (value : OutputFormat)
  | selector (value : Bytes)
  | topLevelOnly
  | maxDepth (value : Nat)
  | followLinks
  | keepBroken
  | rowHeight (value : Float)
  | gutter (value : Float)
  | captionPadding (value : Float)

/-- The settings made so far. -/
structure Given where
  directory : Option Bytes
  widths : List Float
  inputWidths : Bool
  format : Option OutputFormat
  selector : Option Bytes
  topLevelOnly : Bool
  maxDepth : Option Nat
  followLinks : Bool
  keepBroken : Bool
  rowHeight : Option Float
  gutter : Option Float
  captionPadding : Option Float

/-- What the arguments ask for. -/
structure Request where
  directory : Bytes
  /-- The widths in order; the first is that of the load. -/
  widths : List Float
  /-- Whether more widths are read from the standard input. -/
  inputWidths : Bool
  format : OutputFormat
  scan : ScanPolicy
  layout : Layout Float

/-- Why arguments are not carried out. -/
inductive Refusal where
  /-- They ask for the version. -/
  | version
  /-- They ask for help. -/
  | help
  /-- They are wrong. -/
  | misuse
  deriving DecidableEq, Repr

/-- The form of an argument. -/
inductive Word where
  /-- Two hyphens and nothing else. -/
  | separator
  /-- Two hyphens with a name and perhaps a value after an equals sign. -/
  | named (name : Bytes) (value : Option Bytes)
  /-- A hyphen with letters. -/
  | letters (letters : Bytes)
  /-- Anything else. -/
  | plain (bytes : Bytes)
  deriving DecidableEq, Repr

/-- The byte that begins a setting. -/
def hyphen : UInt8 := 45

/-- The byte between a name and its value. -/
def equals : UInt8 := 61

/-- The form of an argument. -/
def Word.ofBytes (argument : Bytes) : Word :=
  match argument with
  | a :: b :: rest =>
    if a ≠ hyphen then .plain argument
    else if b ≠ hyphen then .letters (b :: rest)
    else if rest = [] then .separator
    else .named (rest.takeWhile (· ≠ equals)) (rest.dropWhile (· ≠ equals)).tail?
  | _ => .plain argument

/-- The number of a decimal numeral. A plus sign may come first, and the number must fit into
64 bits. -/
def count? (text : Bytes) : Option Nat := do
  let digits := if text.head? = some 43 then text.tail else text
  if digits = [] then none
  else
    let number := Decimal.ofDigits (← digits.mapM digitValue?)
    if number < 0x10000000000000000 then some number else none

/-- The format of a name. The selector of style rules is a setting of its own. -/
def format? (text : Bytes) : Option OutputFormat :=
  [.text, .css standardSelector, .json].find? fun format => format.name = text

/-- How the value of a setting is read, by the name of the setting. -/
def valued : List (Bytes × (Bytes → Option Setting)) :=
  [(ascii "width", fun text => (Decimal.read? text).map .width),
   (ascii "format", fun text => (format? text).map .format),
   (ascii "selector", fun text => if Utf8.isValid text then some (.selector text) else none),
   (ascii "max-depth", fun text => (count? text).map .maxDepth),
   (ascii "row-height", fun text => (Decimal.read? text).map .rowHeight),
   (ascii "gutter", fun text => (Decimal.read? text).map .gutter),
   (ascii "caption-padding", fun text => (Decimal.read? text).map .captionPadding)]

/-- The settings without a value. -/
def flags : List (Bytes × Setting) :=
  [(ascii "stdin", .inputWidths), (ascii "no-recursive", .topLevelOnly),
   (ascii "follow-symlinks", .followLinks), (ascii "keep-broken", .keepBroken)]

namespace Given

/-- No settings. -/
def nothing : Given :=
  ⟨none, [], false, none, none, false, none, false, false, none, none, none⟩

/-- One more setting, unless it was made before and may not be made again. A directory has a
name. -/
def accept? (given : Given) : Setting → Option Given
  | .directory path =>
    if given.directory.isSome || path = [] then none
    else some { given with directory := some path }
  | .width value => some { given with widths := given.widths ++ [value] }
  | .inputWidths =>
    if given.inputWidths then none else some { given with inputWidths := true }
  | .format value =>
    if given.format.isSome then none else some { given with format := some value }
  | .selector value =>
    if given.selector.isSome then none else some { given with selector := some value }
  | .topLevelOnly =>
    if given.topLevelOnly then none else some { given with topLevelOnly := true }
  | .maxDepth value =>
    if given.maxDepth.isSome then none else some { given with maxDepth := some value }
  | .followLinks =>
    if given.followLinks then none else some { given with followLinks := true }
  | .keepBroken =>
    if given.keepBroken then none else some { given with keepBroken := true }
  | .rowHeight value =>
    if given.rowHeight.isSome then none else some { given with rowHeight := some value }
  | .gutter value =>
    if given.gutter.isSome then none else some { given with gutter := some value }
  | .captionPadding value =>
    if given.captionPadding.isSome then none else some { given with captionPadding := some value }

/-- One more setting, if there is one and it is accepted. -/
def add (given : Given) (setting : Option Setting) : Except Refusal Given :=
  match setting.bind given.accept? with
  | none => .error .misuse
  | some given => .ok given

/-- Arguments that can only name the directory. -/
def readDirectories (given : Given) : List Bytes → Except Refusal Given
  | [] => .ok given
  | argument :: arguments =>
    match given.add (some (.directory argument)) with
    | .error refusal => .error refusal
    | .ok given => given.readDirectories arguments

/-- What a cluster of letters asks for; the first letter decides. -/
def ofLetters (letters : Bytes) : Refusal :=
  if letters.head? = some 86 then .version
  else if letters.head? = some 104 then .help
  else .misuse

/-- Read arguments in order. -/
def read (given : Given) : List Bytes → Except Refusal Given
  | [] => .ok given
  | argument :: arguments =>
    match Word.ofBytes argument with
    | .separator => given.readDirectories arguments
    | .letters letters => .error (ofLetters letters)
    | .plain path =>
      match given.add (some (.directory path)) with
      | .error refusal => .error refusal
      | .ok given => given.read arguments
    | .named name value =>
      match valued.lookup name, value with
      | some setting, some text =>
        match given.add (setting text) with
        | .error refusal => .error refusal
        | .ok given => given.read arguments
      | some setting, none =>
        match arguments with
        | [] => .error .misuse
        | next :: arguments =>
          match Word.ofBytes next with
          | .plain text =>
            match given.add (setting text) with
            | .error refusal => .error refusal
            | .ok given => given.read arguments
          | _ => .error .misuse
      | none, some _ => .error .misuse
      | none, none =>
        if name = ascii "version" then .error .version
        else if name = ascii "help" then .error .help
        else match given.add (flags.lookup name) with
          | .error refusal => .error refusal
          | .ok given => given.read arguments

/-- The request made by settings. A directory must be among them. -/
def request? (given : Given) : Option Request :=
  given.directory.map fun directory =>
    { directory
      widths := if given.widths.isEmpty then [1280] else given.widths
      inputWidths := given.inputWidths
      format := match given.format.getD .text with
        | .css selector => .css (given.selector.getD selector)
        | format => format
      scan :=
        { recursive := !given.topLevelOnly
          maxDepth := given.maxDepth.getD ScanPolicy.standard.maxDepth
          followLinks := given.followLinks
          skipBroken := !given.keepBroken
          cacheCapacity := ScanPolicy.standard.cacheCapacity }
      layout :=
        { rowHeight := given.rowHeight.getD Layout.standard.rowHeight
          gutter := given.gutter.getD Layout.standard.gutter
          captionPadding := given.captionPadding.getD Layout.standard.captionPadding } }

end Given

/-- The request that arguments make. -/
def Request.ofArguments (arguments : List Bytes) : Except Refusal Request :=
  match Given.nothing.read arguments with
  | .error refusal => .error refusal
  | .ok given =>
    match given.request? with
    | none => .error .misuse
    | some request => .ok request

end Gallery.Command
