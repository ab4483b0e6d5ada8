import Gallery.Proofs.Command.Failure
import Gallery.Proofs.Text.Ascii
import Mathlib.Tactic.SplitIfs

/-!
# Widths on the input as options

Widths that are read from the input could as well have been given as options, after all others: the
request that reads them and the one that names them have the same triggers, so they run alike.

What the input holds is said by a reader of its lines, which drops what ends a line, a carriage
return before the newline included. The command itself leaves the carriage return to the trimming of
the line. It is a character of its own, and white space, so neither the place where the reading
stops nor any number depends on it.
-/

namespace Gallery

/-- White space at the end of a text is trimmed off. -/
theorem trim_concat {c : Char} (hc : isBlank c = true) (text : List Char) :
    trim (text ++ [c]) = trim text := by
  unfold trim
  rw [List.dropWhile_append]
  split
  next hempty => simp [List.isEmpty_iff.1 hempty, hc]
  next => simp [hc]

namespace Command

/-! ## The lines of an input -/

/-- The byte that may stand before the newline of a line. -/
def carriageReturn : UInt8 := 13

/-- A line without the carriage return at its end, if there is one. -/
def withoutReturn (line : Bytes) : Bytes :=
  if line.getLast? = some carriageReturn then line.dropLast else line

/-- The lines of an input whose first line began with the given bytes. There is no line after
the last newline unless something stands there. -/
def linesFrom (begun : Bytes) : Bytes → List Bytes
  | [] => if begun = [] then [] else [begun]
  | b :: rest =>
    if b = newline then withoutReturn begun :: linesFrom [] rest else linesFrom (begun ++ [b]) rest

/-- The numeral on a line: what is left after trimming, if that is not blank. No number has other
characters than those of ASCII. -/
def numeral? (line : Bytes) : Option Bytes :=
  (Utf8.decode? line).bind fun text => if trim text = [] then none else asciiBytes? (trim text)

/-- The numerals of an input that are numbers, up to the first line that is not well-formed. -/
def numerals (input : Bytes) : List Bytes :=
  (((linesFrom [] input).takeWhile Utf8.isValid).filterMap numeral?).filter fun numeral =>
    (Decimal.read? numeral).isSome

/-- A line is read as its numeral is; there is no number on a blank one. -/
theorem lineWidth?_eq_bind (line : Bytes) : lineWidth? line = (numeral? line).bind Decimal.read? := by
  unfold lineWidth? numeral?
  cases Utf8.decode? line with
  | none => rfl
  | some text =>
    simp only [Option.bind_some]
    split_ifs with hblank
    · rw [hblank]
      rfl
    · rfl

/-- A carriage return at the end of a line is of no account. -/
theorem withoutReturn_spec (line : Bytes) :
    Utf8.isValid (withoutReturn line) = Utf8.isValid line ∧
      lineWidth? (withoutReturn line) = lineWidth? line := by
  unfold withoutReturn
  split_ifs with hlast
  · obtain ⟨front, rfl⟩ := List.getLast?_eq_some_iff.1 hlast
    have hascii : carriageReturn < 0x80 := by decide
    have hblank : isBlank (Char.ofNat carriageReturn.toNat) = true := by decide
    rw [List.dropLast_concat]
    constructor
    · rw [Utf8.isValid_concat front hascii]
    · rw [lineWidth?, lineWidth?, Utf8.decode?_concat front hascii]
      cases Utf8.decode? front with
      | none => rfl
      | some text => simp only [Option.map_some, Option.bind_some, trim_concat hblank]
  · exact ⟨rfl, rfl⟩

/-- The widths on pieces between newlines are those on lines. -/
theorem filterMap_lineWidth?_splitAtByte {begun : Bytes} (hbegun : newline ∉ begun)
    (input : Bytes) :
    ((splitAtByte newline (begun ++ input)).takeWhile Utf8.isValid).filterMap lineWidth? =
      ((linesFrom begun input).takeWhile Utf8.isValid).filterMap lineWidth? := by
  induction input generalizing begun with
  | nil =>
    rw [List.append_nil, splitAtByte_of_notMem hbegun, linesFrom]
    split_ifs with hempty
    · rw [hempty]
      rfl
    · rfl
  | cons b rest ih =>
    rw [linesFrom]
    split_ifs with hnewline
    · obtain ⟨hvalid, hwidth⟩ := withoutReturn_spec begun
      have hlater := ih List.not_mem_nil
      rw [List.nil_append] at hlater
      rw [hnewline, splitAtByte_append_cons, splitAtByte_of_notMem hbegun, List.singleton_append,
        List.takeWhile_cons, List.takeWhile_cons, hvalid]
      split_ifs
      · rw [List.filterMap_cons, List.filterMap_cons, hwidth, hlater]
      · rfl
    · have hlonger : newline ∉ begun ++ [b] := by simp [hbegun, Ne.symm hnewline]
      have hlater := ih hlonger
      rwa [List.append_assoc] at hlater

/-- The widths on an input are the values of its numerals. -/
theorem widths_eq_filterMap_numerals (input : Bytes) :
    widths input = (numerals input).filterMap Decimal.read? := by
  have hlines := filterMap_lineWidth?_splitAtByte List.not_mem_nil input
  rw [List.nil_append] at hlines
  have hnumeral : lineWidth? = fun line => (numeral? line).bind Decimal.read? :=
    funext lineWidth?_eq_bind
  rw [widths, hlines, numerals, List.filterMap_filter, hnumeral, ← List.filterMap_filterMap]
  congr 1
  funext numeral
  cases Decimal.read? numeral <;> rfl

/-! ## Requests -/

namespace Request

variable {request : Request}

/-- A request with some more widths and none to read. -/
def withWidths (request : Request) (more : List Float) : Request :=
  { request with widths := request.widths ++ more, inputWidths := false }

/-- Widths that are read are triggers like those that are given, once there is one for the load. -/
theorem triggers_withWidths (hwidths : request.widths ≠ []) (hinput : request.inputWidths = true)
    (input unread : Bytes) :
    (request.withWidths (Command.widths input)).triggers unread = request.triggers input := by
  obtain ⟨first, others, hfirst⟩ := List.exists_cons_of_ne_nil hwidths
  simp [triggers, withWidths, hfirst, hinput]

/-- So the request runs as if they were given. -/
theorem execute_withWidths (hwidths : request.widths ≠ []) (hinput : request.inputWidths = true)
    (tree : Tree) (input unread : Bytes) :
    (request.withWidths (Command.widths input)).execute tree unread = request.execute tree input := by
  unfold execute
  rw [triggers_withWidths hwidths hinput]
  rfl

end Request

/-! ## Arguments -/

namespace Given

variable {given next : Given}

/-- Only two hyphens end the settings. -/
theorem eq_of_separator {argument : Bytes} (hword : Word.ofBytes argument = .separator) :
    argument = ascii "--" := by
  unfold Word.ofBytes at hword
  split at hword
  next first second rest =>
    split_ifs at hword with hfirst hsecond hrest
    rw [not_not.1 hfirst, not_not.1 hsecond, hrest]
    rfl
  next => contradiction

/-- Arguments are read one after the other, unless the first ones end the settings. -/
theorem read_append {first : List Bytes} (hread : given.read first = .ok next)
    (hseparator : ascii "--" ∉ first) (second : List Bytes) :
    given.read (first ++ second) = next.read second := by
  fun_induction given.read first with
  | case1 given => rw [Except.ok.inj hread, List.nil_append]
  | case2 given argument arguments hword =>
    exact absurd (eq_of_separator hword ▸ List.mem_cons_self) hseparator
  | case5 given argument arguments path hword added hadd ih =>
    have hlater := ih hread (mt (List.mem_cons_of_mem _) hseparator)
    rw [List.cons_append, read, hword]
    simpa [hadd] using hlater
  | case7 given argument arguments name setting text hname added hadd hword ih =>
    have hlater := ih hread (mt (List.mem_cons_of_mem _) hseparator)
    rw [List.cons_append, read, hword]
    simpa [hname, hadd] using hlater
  | case10 given argument name setting hname value arguments text hplain added hadd hword ih =>
    have hlater := ih hread fun hmem =>
      hseparator (List.mem_cons_of_mem _ (List.mem_cons_of_mem _ hmem))
    rw [List.cons_append, List.cons_append, read, hword]
    simpa [hname, hplain, hadd] using hlater
  | case16 given argument arguments name hname hversion hhelp added hadd hword ih =>
    have hlater := ih hread (mt (List.mem_cons_of_mem _) hseparator)
    rw [List.cons_append, read, hword]
    simpa [hname, hversion, hhelp, hadd] using hlater
  | case3 | case4 | case6 | case8 | case9 | case11 | case12 | case13 | case14 | case15 =>
    contradiction

/-- The argument that gives a width. -/
def widthArgument (numeral : Bytes) : Bytes := ascii "--width=" ++ numeral

/-- Arguments with numbers give their values as widths. -/
theorem read_widthArguments {numbers : List Bytes}
    (hnumbers : ∀ numeral ∈ numbers, (Decimal.read? numeral).isSome) :
    given.read (numbers.map widthArgument) =
      .ok { given with widths := given.widths ++ numbers.filterMap Decimal.read? } := by
  induction numbers generalizing given with
  | nil => simp [read]
  | cons numeral numbers ih =>
    obtain ⟨value, hvalue⟩ := Option.isSome_iff_exists.1 (hnumbers numeral List.mem_cons_self)
    have hword : Word.ofBytes (widthArgument numeral) = .named (ascii "width") (some numeral) := rfl
    have hname : valued.lookup (ascii "width") =
      some fun text => (Decimal.read? text).map .width := rfl
    have hadd : given.add ((Decimal.read? numeral).map .width) =
        .ok { given with widths := given.widths ++ [value] } := by
      rw [hvalue]
      rfl
    rw [List.map_cons, read, hword]
    simp only [hname, hadd]
    rw [ih fun other hother => hnumbers other (List.mem_cons_of_mem _ hother)]
    simp [hvalue]

/-- The argument that asks for the widths on the input does so. -/
theorem read_stdin (hinput : given.inputWidths = false) :
    given.read [ascii "--stdin"] = .ok { given with inputWidths := true } := by
  have hword : Word.ofBytes (ascii "--stdin") = .named (ascii "stdin") none := rfl
  have hname : valued.lookup (ascii "stdin") = none := rfl
  have hflag : flags.lookup (ascii "stdin") = some .inputWidths := rfl
  have hversion : ascii "stdin" ≠ ascii "version" := by decide
  have hhelp : ascii "stdin" ≠ ascii "help" := by decide
  have hadd : given.add (some .inputWidths) = .ok { given with inputWidths := true } := by
    simp [add, accept?, hinput]
  rw [read, hword]
  simp only [hname, hversion, hhelp, hflag, hadd, if_false]
  rfl

/-- Further widths of settings are further widths of the request. -/
theorem request?_further (hwidths : given.widths ≠ []) (hinput : given.inputWidths = false)
    (more : List Float) :
    { given with widths := given.widths ++ more }.request? =
      { given with inputWidths := true }.request?.map (Request.withWidths · more) := by
  cases hdirectory : given.directory with
  | none => simp [request?]
  | some directory => simp [request?, Request.withWidths, hwidths, hinput]

end Given

/-- Arguments that ask for the widths on the input make the same run as arguments that name them. -/
theorem run_of_withWidths {first second : List Bytes} {request : Request} (tree : Tree)
    (input unread : Bytes) (hfirst : Request.ofArguments first = .ok request)
    (hinput : request.inputWidths = true)
    (hsecond : Request.ofArguments second =
      .ok (request.withWidths ((numerals input).filterMap Decimal.read?))) :
    run tree first input = run tree second unread := by
  rw [← widths_eq_filterMap_numerals] at hsecond
  rw [run, run, hfirst, hsecond]
  exact (Request.execute_withWidths (Request.widths_ne_nil hfirst) hinput _ _ _).symm

/-- Widths on the input are further options. A request that reads them runs as the one does that
names them after its own widths, whatever its options are and in whatever way either is given.
In particular, once there is a width, the argument that asks for reading can be replaced by
one argument for each number on the input. The input of that run does not matter. -/
theorem input_widths_are_further_options (tree : Tree) (input unread : Bytes) :
    (∀ first second request, Request.ofArguments first = .ok request →
      request.inputWidths = true →
      Request.ofArguments second =
        .ok (request.withWidths ((numerals input).filterMap Decimal.read?)) →
      run tree first input = run tree second unread) ∧
    ∀ arguments given, Given.nothing.read arguments = .ok given →
      given.widths ≠ [] → given.inputWidths = false → ascii "--" ∉ arguments →
      run tree (arguments ++ [ascii "--stdin"]) input =
        run tree (arguments ++ (numerals input).map Given.widthArgument) unread := by
  refine ⟨fun first second request => run_of_withWidths tree input unread, ?_⟩
  intro arguments given hread hwidths hinput hseparator
  have hnumbers : ∀ numeral ∈ numerals input, (Decimal.read? numeral).isSome := fun _ hmem =>
    (List.mem_filter.1 hmem).2
  have hfirst : Given.nothing.read (arguments ++ [ascii "--stdin"]) =
      .ok { given with inputWidths := true } := by
    rw [Given.read_append hread hseparator, Given.read_stdin hinput]
  have hsecond : Given.nothing.read (arguments ++ (numerals input).map Given.widthArgument) =
      .ok { given with widths := given.widths ++ (numerals input).filterMap Decimal.read? } := by
    rw [Given.read_append hread hseparator, Given.read_widthArguments hnumbers]
  have hrequest := Given.request?_further hwidths hinput
    ((numerals input).filterMap Decimal.read?)
  cases hgiven : { given with inputWidths := true }.request? with
  | none =>
    -- Without a directory, both are misuse.
    rw [hgiven, Option.map_none] at hrequest
    simp [run, Request.ofArguments, hfirst, hsecond, hgiven, hrequest]
  | some request =>
    rw [hgiven, Option.map_some] at hrequest
    have hasked : request.inputWidths = true := by
      obtain ⟨directory, -, rfl⟩ := Option.map_eq_some_iff.1 hgiven
      rfl
    apply run_of_withWidths tree input unread _ hasked
    · simp [Request.ofArguments, hsecond, hrequest]
    · simp [Request.ofArguments, hfirst, hgiven]

/-- A directory with one picture. -/
def solitary : Tree := Tree.empty.write (ascii "g/a.gif")
  (ascii "GIF89a" ++ [3, 0, 2, 0, 0, 0, 0, 0x2C, 0, 0, 0, 0]) 1000000000

/-- An input with two numbers. Between them are a blank line, one of other white space and one
that holds no number; the third number is behind a line that is not well-formed. -/
def typed : Bytes :=
  ascii "640\r\n\n" ++ [0xC2, 0xA0] ++ ascii "\n12px\n nan \n" ++ [0xFF, 10] ++ ascii "320\n"

/-- It stands for two options, before or behind the directory. -/
theorem input_widths_are_further_options_typed :
    run solitary [ascii "--width=700", ascii "g", ascii "--stdin"] typed =
        run solitary [ascii "--width=700", ascii "g", ascii "--width=640", ascii "--width=nan"] [] ∧
      run solitary [ascii "--stdin", ascii "g", ascii "--width=700"] typed =
        run solitary [ascii "--width=700", ascii "--width=640", ascii "--width=nan", ascii "g"] [] := by
  have hnumerals : numerals typed = [ascii "640", ascii "nan"] := by decide +kernel
  obtain ⟨halike, hreplaced⟩ := input_widths_are_further_options solitary typed []
  rw [hnumerals] at halike hreplaced
  constructor
  · exact hreplaced [ascii "--width=700", ascii "g"]
      { Given.nothing with widths := [700], directory := some (ascii "g") } rfl nofun rfl
      (by decide)
  · exact halike _ _ ⟨ascii "g", [700], true, .text, .standard, .standard⟩ rfl rfl rfl

end Command

end Gallery
