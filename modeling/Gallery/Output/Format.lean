import Gallery.Pass
import Gallery.Json.Writer

/-!
# Output formats

Three formats present a pass. The text listing has a line for the container, for each row
and for each item, and a line with the totals. The style rules bound the thumbnail of each
item and the width of its caption, counting items from one. The JSON document has one line
for the whole pass, so its rows are kept until the pass is finished.

A format does not write anything itself. It says, for each call, which steps are to be taken
in which order. A caption that would be narrower than nothing is written with width zero.
-/

namespace Gallery

/-- A format, with the selector of the items for style rules. -/
inductive OutputFormat where
  | text
  | css (selector : Bytes)
  | json
  deriving DecidableEq, Repr

/-- The selector used where none is given. -/
def standardSelector : Bytes := ascii "#Media li"

/-- The name of the format. -/
def OutputFormat.name : OutputFormat → Bytes
  | .text => ascii "text"
  | .css _ => ascii "css"
  | .json => ascii "json"

/-- What was being done when a fault arose, where a fault names it. -/
inductive Activity where
  | serializing
  | flushing (format : OutputFormat)
  deriving DecidableEq, Repr

/-- The wording of an activity. -/
def Activity.describe : Activity → Bytes
  | .serializing => ascii "serialize layout"
  | .flushing format => ascii "flush " ++ format.name ++ ascii " output"

/-- Why output failed. -/
inductive Obstacle where
  | limitReached
  | flushRefused
  | pathNotText
  deriving DecidableEq, Repr

/-- The wording of an obstacle. -/
def Obstacle.describe : Obstacle → Bytes
  | .limitReached => ascii "output limit reached"
  | .flushRefused => ascii "flush refused"
  | .pathNotText => ascii "path contains invalid UTF-8 characters"

/-- A failure of output. -/
structure OutputFault where
  activity : Option Activity
  obstacle : Obstacle
  deriving DecidableEq, Repr

/-- The wording of a failure, from the activity to its cause. -/
def OutputFault.causes (fault : OutputFault) : List Bytes :=
  fault.activity.toList.map Activity.describe ++ [fault.obstacle.describe]

/-- A step of output. -/
inductive Action where
  /-- Write bytes; a refusal is put down to the activity, if one is named. -/
  | write (activity : Option Activity) (bytes : Bytes)
  /-- Give up. -/
  | fail (fault : OutputFault)
  /-- Keep a row for the document. -/
  | keep (row : Row Float)
  /-- Forget all rows that were kept. -/
  | forget
  /-- Flush the writer. -/
  | flush (activity : Activity)

/-- The width that is written for a caption: not below zero, and zero if undefined. -/
def shownCaption (width : Float) : Float := if 0 < width then width else 0

/-- A placement with the caption width that is written. -/
def Placement.shown (item : Placement Float) : Placement Float :=
  { item with captionWidth := shownCaption item.captionWidth }

/-- A row with the caption widths that are written. -/
def Row.shown (row : Row Float) : Row Float := { row with items := row.items.map Placement.shown }

/-- A line of text. -/
def line (text : Bytes) : Bytes := text ++ [newline]

namespace Listing

/-- The byte between two fields of an item. -/
def tab : Bytes := [9]

/-- The line of the container. -/
def startLine (width : Float) : Bytes := line (ascii "# width " ++ Decimal.plainText width)

/-- The line that opens a row. -/
def rowLine (row : Row Float) : Bytes :=
  line (ascii "# row " ++ decimal row.rowIndex.toNat ++ ascii " height " ++
    Decimal.twoPlacesText row.height ++ if row.wrapped then [] else ascii " (default)")

/-- The fields of an item. -/
def itemFields (item : Placement Float) : List Bytes :=
  [decimal item.index, Utf8.display item.path, Decimal.twoPlacesText item.width,
    Decimal.twoPlacesText item.height, Decimal.twoPlacesText (shownCaption item.captionWidth)]

/-- The line of an item. -/
def itemLine (item : Placement Float) : Bytes := line (tab.intercalate (itemFields item))

/-- The line of the totals. -/
def totalsLine (summary : Summary) : Bytes :=
  line (ascii "# " ++ decimal summary.itemCount ++ ascii " items in " ++
    decimal summary.rowCount ++ ascii " rows, " ++ Decimal.twoPlacesText summary.totalHeight ++
    ascii "px tall")

/-- The steps of a call. -/
def actions : Call → List Action
  | .start width => [.write none (startLine width)]
  | .row row => [.write none (rowLine row ++ row.items.flatMap itemLine)]
  | .finish summary => [.write none (totalsLine summary), .flush (.flushing .text)]

end Listing

namespace Stylesheet

/-- A length in pixels. -/
def pixels (x : Float) : Bytes := Decimal.plainText x ++ ascii "px"

/-- A property with its value. -/
def property (name value : Bytes) : Bytes := ascii " " ++ name ++ ascii ": " ++ value ++ ascii ";"

/-- A rule for a part of an item, with its properties. -/
def rule (selector : Bytes) (index : Nat) (part : Bytes) (properties : List Bytes) : Bytes :=
  line (selector ++ ascii ":nth-child(" ++ decimal (index + 1) ++ ascii ") " ++ part ++
    ascii " \x7b" ++ properties.flatten ++ ascii " \x7d")

/-- The rule of a thumbnail: its own width, bounded by the size of its place. -/
def thumbRule (selector : Bytes) (item : Placement Float) : Bytes :=
  rule selector item.index (ascii ".thumb")
    [property (ascii "width") (ascii "auto"), property (ascii "height") (pixels item.height),
     property (ascii "max-width") (pixels item.width),
     property (ascii "max-height") (pixels item.height)]

/-- The rule of a caption. -/
def captionRule (selector : Bytes) (item : Placement Float) : Bytes :=
  let width := pixels (shownCaption item.captionWidth)
  rule selector item.index (ascii ".caption")
    [property (ascii "width") width, property (ascii "max-width") width]

/-- The comment that opens a pass. -/
def startLine (width : Float) : Bytes :=
  line (ascii "/* container width " ++ pixels width ++ ascii " */")

/-- The steps of a call. -/
def actions (selector : Bytes) : Call → List Action
  | .start width => [.write none (startLine width)]
  | .row row =>
    [.write none (row.items.flatMap fun item => thumbRule selector item ++ captionRule selector item)]
  | .finish _ => [.flush (.flushing (.css selector))]

end Stylesheet

namespace Document

open Json (Value)

/-- An item of the document. -/
def itemValue (item : Placement Float) : Value :=
  .object [(ascii "index", .count item.index), (ascii "media_path", .text item.path),
    (ascii "aspect_ratio", .number item.ratio), (ascii "rendered_w", .number item.width),
    (ascii "rendered_h", .number item.height), (ascii "caption_w", .number item.captionWidth)]

/-- A row of the document. -/
def rowValue (row : Row Float) : Value :=
  .object [(ascii "row_index", .count row.rowIndex.toNat), (ascii "start_index", .count row.start),
    (ascii "height_px", .number row.height), (ascii "wrapped", .bool row.wrapped),
    (ascii "items", .array (row.items.map itemValue))]

/-- The document of a pass. -/
def passValue (summary : Summary) (rows : List (Row Float)) : Value :=
  .object [(ascii "container_width", .number summary.containerWidth),
    (ascii "row_count", .count summary.rowCount), (ascii "item_count", .count summary.itemCount),
    (ascii "total_height", .number summary.totalHeight),
    (ascii "rows", .array (rows.map rowValue))]

/-- The steps of a call, given the rows that were kept. The rows are forgotten only when the
whole line has been written, and before the flush. -/
def actions (kept : List (Row Float)) : Call → List Action
  | .start _ => [.forget]
  | .row row => [.keep row.shown]
  | .finish summary =>
    let document := (passValue summary kept).render
    .write (some .serializing) document.bytes ::
      if document.isComplete then [.write none [newline], .forget, .flush (.flushing .json)]
      else [.fail ⟨some .serializing, .pathNotText⟩]

end Document

/-- The steps of a call, given the rows that were kept. -/
def OutputFormat.actions (format : OutputFormat) (kept : List (Row Float)) (call : Call) : List Action :=
  match format with
  | .text => Listing.actions call
  | .css selector => Stylesheet.actions selector call
  | .json => Document.actions kept call

/-- Only the document gives up. -/
theorem OutputFormat.not_fail_of_ne_json {format : OutputFormat} (hformat : format ≠ .json)
    (kept : List (Row Float)) (call : Call) (fault : OutputFault) :
    Action.fail fault ∉ format.actions kept call := by
  cases format with
  | text => cases call <;> simp [OutputFormat.actions, Listing.actions]
  | css selector => cases call <;> simp [OutputFormat.actions, Stylesheet.actions]
  | json => contradiction

/-- It does so where a path is no text. -/
theorem OutputFormat.obstacle_of_fail_mem {format : OutputFormat} {kept : List (Row Float)}
    {call : Call} {fault : OutputFault} (hfault : Action.fail fault ∈ format.actions kept call) :
    fault.obstacle = .pathNotText := by
  by_cases hformat : format = .json
  · subst hformat
    cases call with
    | start width => simp [OutputFormat.actions, Document.actions] at hfault
    | row row => simp [OutputFormat.actions, Document.actions] at hfault
    | finish summary =>
      cases hcomplete : (Document.passValue summary kept).render.isComplete <;>
        simp [OutputFormat.actions, Document.actions, hcomplete] at hfault
      rw [hfault]
  · exact absurd hfault (not_fail_of_ne_json hformat kept call fault)

end Gallery
