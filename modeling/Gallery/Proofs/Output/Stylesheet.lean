import Gallery.Proofs.Layout.Coverage
import Gallery.Proofs.Output.Passes

/-!
# The style rules of a pass

A pass of style rules is a comment and then, for every item of the rows, a rule for its thumbnail
and one for its caption. The rows number their items, and over all rows of a layout these numbers
are the positions of the items in order. So the pairs of rules are in the order of the items,
whichever rows these are in, and the numbering never starts anew.
-/

namespace Gallery

namespace Stylesheet

/-- The comment of a pass. -/
def commentText (width : Float) : Bytes :=
  ascii "/* container width " ++ Decimal.plainText width ++ ascii "px */\n"

/-- The rule for the thumbnail of the child at a position, counted from one. -/
def thumbText (selector : Bytes) (position : Nat) (height maxWidth : Float) : Bytes :=
  selector ++ ascii ":nth-child(" ++ decimal position ++
    ascii ") .thumb \x7b width: auto; height: " ++ Decimal.plainText height ++
    ascii "px; max-width: " ++ Decimal.plainText maxWidth ++
    ascii "px; max-height: " ++ Decimal.plainText height ++ ascii "px; \x7d\n"

/-- The rule for the caption of the child at a position, counted from one. -/
def captionText (selector : Bytes) (position : Nat) (width : Float) : Bytes :=
  selector ++ ascii ":nth-child(" ++ decimal position ++
    ascii ") .caption \x7b width: " ++ Decimal.plainText width ++
    ascii "px; max-width: " ++ Decimal.plainText width ++ ascii "px; \x7d\n"

/-- The comment is the first line of a pass. -/
theorem startLine_eq (width : Float) : startLine width = commentText width := by
  simp [startLine, commentText, pixels, line, ascii, newline]

/-- The rule of a thumbnail counts the item from one. -/
theorem thumbRule_eq (selector : Bytes) (item : Placement Float) :
    thumbRule selector item = thumbText selector (item.index + 1) item.height item.width := by
  simp [thumbRule, thumbText, rule, property, pixels, line, ascii, newline]

/-- So does that of a caption, which is not narrower than nothing. -/
theorem captionRule_eq (selector : Bytes) (item : Placement Float) :
    captionRule selector item = captionText selector (item.index + 1)
      (if item.captionWidth.isNaN then 0 else max item.captionWidth 0) := by
  rw [← shownCaption_eq_max]
  simp [captionRule, captionText, rule, property, pixels, line, ascii, newline]

/-- The two rules of an item. -/
def itemRules (selector : Bytes) (item : Placement Float) : Bytes × Bytes :=
  (thumbRule selector item, captionRule selector item)

/-- What is written at the calls of a pass: the comment, and then the rules of all items of the rows. -/
theorem passBytes_eq (selector : Bytes) (width : Float) (rows : List (Row Float))
    (summary : Summary) :
    (OutputFormat.css selector).passBytes width rows summary = commentText width ++
      ((rows.flatMap (·.items)).map (itemRules selector)).flatMap fun rules => rules.1 ++ rules.2 := by
  have hstart : (OutputFormat.css selector).bytesAt (.start width) = commentText width := by
    rw [← startLine_eq]
    exact List.append_nil _
  have hrow (row : Row Float) : (OutputFormat.css selector).bytesAt (.row row) =
      row.items.flatMap fun item => (itemRules selector item).1 ++ (itemRules selector item).2 :=
    List.append_nil _
  have hfinish : (OutputFormat.css selector).bytesAt (.finish summary) = [] := rfl
  simp only [OutputFormat.passBytes, hstart, hrow, hfinish, List.append_nil, List.flatMap_map,
    List.flatMap_assoc]

end Stylesheet

/-- A pass of style rules has two rules for every item, in the order of the items and counted from
one, and nothing else but its comment. -/
theorem Sink.stylesheet_styles_every_item_once (layout : Layout Float) (items : List Picture)
    (width : Float) (selector : Bytes) (summary : Summary)
    (hcount : items.length < 2 ^ 32 - 1) (hheights : ∀ item ∈ items, item.dimensions.height ≠ 0)
    (hfinite : width.isFinite = true) (hpositive : 0 < width) :
    ∃ (rows : List (Row Float)) (sink : Sink) (rules : List (Bytes × Bytes)),
      layout.arrange items width = .ok rows ∧
      receiver.feed (fresh (.css selector) .unlimited) (passCalls width rows summary) =
        (.ok (), sink) ∧
      sink.writer.held = Stylesheet.commentText width ++
        (rules.flatMap fun pair => pair.1 ++ pair.2) ∧
      rules.length = items.length ∧
      (rows.flatMap (·.items)).map (·.index) = List.range items.length ∧
      ∀ (k : Nat) (hk : k < items.length), ∃ row ∈ rows, ∃ ratio : Float,
        k ∈ row.items.map (·.index) ∧ items[k].aspectRatio? = some ratio ∧
        let maxWidth := row.height * ratio
        let captionWidth := maxWidth - layout.captionPadding
        rules[k]? = some (Stylesheet.thumbText selector (k + 1) row.height maxWidth,
          Stylesheet.captionText selector (k + 1)
            (if captionWidth.isNaN then 0 else max captionWidth 0)) := by
  have hwidth : Layout.isUsable width = true :=
    (Bool.and_eq_true _ _).mpr ⟨hfinite, decide_eq_true hpositive⟩
  obtain ⟨rows, harrange, hrows⟩ :=
    Layout.greedy_arrange layout (Layout.countsGaps_of_length_lt hcount) hheights hwidth
  have hformat : OutputFormat.css selector ≠ .json := nofun
  obtain ⟨sink, hfeed, hheld⟩ := feed_passCalls_of_ne_json hformat width rows summary
  have hindex := hrows.map_index_items
  refine ⟨rows, sink, (rows.flatMap (·.items)).map (Stylesheet.itemRules selector), harrange, hfeed,
    ?_, ?_, hindex, ?_⟩
  · rw [hheld, Stylesheet.passBytes_eq]
  · have hlength := congrArg List.length hindex
    rw [List.length_map, List.length_range] at hlength
    rw [List.length_map, hlength]
  · intro k hk
    obtain ⟨row, hrow, placed, hplaced, hget, hnumber⟩ := hrows.exists_placed hk
    obtain ⟨picture, hpicture, -, hratio, hheight, hmaxWidth, hcaption⟩ :=
      hrows.exists_picture_of_mem hrow hplaced
    have hitem : picture = items[k] := by
      rw [hnumber, List.getElem?_eq_getElem hk] at hpicture
      exact (Option.some.inj hpicture).symm
    refine ⟨row, hrow, placed.ratio, List.mem_map.2 ⟨placed, hplaced, hnumber⟩, ?_, ?_⟩
    · rw [hratio, hitem]
      exact items[k].aspectRatio?_eq_some (hheights _ (List.getElem_mem hk))
    · simp only [List.getElem?_map, hget, Option.map_some, Stylesheet.itemRules,
        Stylesheet.thumbRule_eq, Stylesheet.captionRule_eq, hnumber, hcaption, hmaxWidth, hheight]

/-- Three items over two rows have six rules. -/
theorem Sink.stylesheet_styles_every_item_once_wrapped :
    ∃ (rows : List (Row Float)) (sink : Sink) (rules : List (Bytes × Bytes)),
      Layout.standard.arrange
        [.ofDimensions [] ⟨300, 200⟩, .ofDimensions [] ⟨500, 500⟩, .ofDimensions [] ⟨800, 400⟩] 500 =
          .ok rows ∧
      receiver.feed (fresh (.css standardSelector) .unlimited)
        (passCalls 500 rows ⟨500, 2, 3, 300⟩) = (.ok (), sink) ∧
      sink.writer.held = Stylesheet.commentText 500 ++
        (rules.flatMap fun pair => pair.1 ++ pair.2) ∧
      rules.length = 3 := by
  obtain ⟨rows, sink, rules, harrange, hfeed, hheld, hlength, -⟩ :=
    stylesheet_styles_every_item_once Layout.standard
      [.ofDimensions [] ⟨300, 200⟩, .ofDimensions [] ⟨500, 500⟩, .ofDimensions [] ⟨800, 400⟩] 500
      standardSelector ⟨500, 2, 3, 300⟩ (by decide) (by decide) (by decide +kernel)
      (by decide +kernel)
  exact ⟨rows, sink, rules, harrange, hfeed, hheld, hlength⟩

end Gallery
