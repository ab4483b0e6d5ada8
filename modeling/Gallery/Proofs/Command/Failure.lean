import Gallery.Command.Run
import Gallery.Proofs.Layout.Faults
import Gallery.Proofs.Output.Passes
import Gallery.Proofs.Session.Unbroken

/-!
# When the command fails

On a tree that does not change and an output that accepts everything, a request is one load and
then resizes, so every pass shows the pictures of one scan. This leaves three ways to fail. There
may be no directory; no width may give a pass; or the output gives up, which takes a pass of a
document with a path that is no text.

A width that is no width of a container gives a pass without rows, whatever the pictures are. So
one such width is enough for a request to succeed with pictures that have no layout, and no path
is looked at for its sake.
-/

namespace Gallery

namespace Session

variable (session : Session) (items : List Picture) (width : Float)

/-- There is no pass only if a proper container is to show a picture without height. -/
theorem passesFor_eq_nil_iff : session.passesFor items width = [] ↔
    IsProper width ∧ ∃ item ∈ items, item.dimensions.height = 0 := by
  rw [← isUsable_iff_isProper, ← @Layout.exists_arrange_eq_error_iff _ _ session.layout, passesFor]
  cases session.layout.arrange items width <;> simp

/-- Rows of a proper container that show items show their paths. -/
theorem pathsAreText_arrange_iff {rows : List (Row Float)}
    (harrange : session.layout.arrange items width = .ok rows) (hwidth : IsProper width) :
    PathsAreText rows ↔ ∀ item ∈ items, Utf8.isValid item.path := by
  have hpaths := Layout.flatMap_path_arrange harrange ((isUsable_iff_isProper width).2 hwidth)
  have hall : (∀ path ∈ rows.flatMap fun row => row.items.map (·.path), Utf8.isValid path) ↔
      ∀ path ∈ items.map (·.path), Utf8.isValid path := by rw [hpaths]
  simpa only [PathsAreText, List.forall_mem_flatMap, List.forall_mem_map] using hall

/-- A path that is no text is shown only if a proper container shows its picture. -/
theorem exists_not_pathsAreText_iff :
    (∃ pass ∈ session.passesFor items width, ¬PathsAreText pass.rows) ↔
      IsProper width ∧ (∀ item ∈ items, item.dimensions.height ≠ 0) ∧
        ∃ item ∈ items, ¬Utf8.isValid item.path := by
  cases harrange : session.layout.arrange items width with
  | error fault =>
    obtain ⟨-, item, hitem, hheight⟩ := Layout.exists_arrange_eq_error_iff.1 ⟨fault, harrange⟩
    simp only [passesFor, harrange, List.not_mem_nil, false_and, exists_false, false_iff]
    exact fun hshown => hshown.2.1 item hitem hheight
  | ok rows =>
    simp only [passesFor, harrange, List.mem_singleton, exists_eq_left]
    by_cases hwidth : IsProper width
    · have hheights : ∀ item ∈ items, item.dimensions.height ≠ 0 := by
        intro item hitem hheight
        obtain ⟨fault, herror⟩ := Layout.exists_arrange_eq_error_iff.2
          ⟨(isUsable_iff_isProper width).2 hwidth, item, hitem, hheight⟩
        exact absurd (harrange.symm.trans herror) nofun
      rw [pathsAreText_arrange_iff session items width harrange hwidth, and_iff_right hwidth,
        and_iff_right hheights]
      simp
    · have hunusable : Layout.isUsable width = false :=
        Bool.eq_false_iff.2 fun husable => hwidth ((isUsable_iff_isProper width).1 husable)
      have hrows : rows = [] :=
        Except.ok.inj (harrange.symm.trans (Layout.arrange_of_not_isUsable hunusable))
      simp [hwidth, hrows, PathsAreText]

end Session

namespace Command

/-! ## The arguments -/

namespace Given

variable {given next : Given}

/-- One more setting keeps broken pictures only if it asks for that. -/
theorem keepBroken_of_add {setting : Option Setting} (hadd : given.add setting = .ok next)
    (hkeep : next.keepBroken = true) : given.keepBroken = true ∨ setting = some .keepBroken := by
  cases setting with
  | none => contradiction
  | some setting =>
    unfold add at hadd
    cases setting <;> grind [accept?]

/-- No setting with a value asks for it. -/
theorem ne_keepBroken_of_valued {name text : Bytes} {reading : Bytes → Option Setting}
    (hname : valued.lookup name = some reading) : reading text ≠ some .keepBroken := by
  have hvalued : ∀ entry ∈ valued, entry.2 text ≠ some .keepBroken := by simp [valued]
  exact hvalued _ (mem_of_lookup_eq_some hname)

/-- One name asks for it. -/
theorem eq_of_flags {name : Bytes} (hname : flags.lookup name = some .keepBroken) :
    name = ascii "keep-broken" := by
  have hmem := mem_of_lookup_eq_some hname
  simpa [flags] using hmem

/-- An argument that is a name without a value is that name behind two hyphens. -/
theorem eq_of_named {argument name : Bytes} (hword : Word.ofBytes argument = .named name none) :
    argument = hyphen :: hyphen :: name := by
  unfold Word.ofBytes at hword
  split at hword
  next first second rest =>
    split_ifs at hword with hfirst hsecond hrest
    obtain ⟨hname, hvalue⟩ := Word.named.inj hword
    have hrest : rest.dropWhile (· ≠ equals) = [] := by
      cases hdrop : rest.dropWhile (· ≠ equals) with
      | nil => rfl
      | cons =>
        rw [hdrop] at hvalue
        contradiction
    have hall := rest.takeWhile_append_dropWhile (p := (· ≠ equals))
    rw [hrest, List.append_nil, hname] at hall
    rw [not_not.1 hfirst, not_not.1 hsecond, hall]
  next => contradiction

/-- Directories ask for nothing else. -/
theorem keepBroken_of_readDirectories {arguments : List Bytes}
    (hread : given.readDirectories arguments = .ok next) (hkeep : next.keepBroken = true) :
    given.keepBroken = true := by
  induction arguments generalizing given with
  | nil => exact Except.ok.inj hread ▸ hkeep
  | cons argument arguments ih =>
    rw [readDirectories] at hread
    cases hadd : given.add (some (.directory argument)) with
    | error refusal =>
      rw [hadd] at hread
      contradiction
    | ok added =>
      rw [hadd] at hread
      exact (keepBroken_of_add hadd (ih hread)).resolve_right nofun

/-- Arguments keep broken pictures only if one of them asks for that. -/
theorem keepBroken_of_read {arguments : List Bytes} (hread : given.read arguments = .ok next)
    (hkeep : next.keepBroken = true) :
    given.keepBroken = true ∨ ascii "--keep-broken" ∈ arguments := by
  fun_induction given.read arguments with
  | case1 given => exact .inl (Except.ok.inj hread ▸ hkeep)
  | case2 given argument arguments hword => exact .inl (keepBroken_of_readDirectories hread hkeep)
  | case5 given argument arguments path hword added hadd ih =>
    obtain hadded | hlater := ih hread
    · exact .inl ((keepBroken_of_add hadd hadded).resolve_right nofun)
    · exact .inr (List.mem_cons_of_mem _ hlater)
  | case7 given argument arguments name setting text hname added hadd hword ih =>
    obtain hadded | hlater := ih hread
    · exact .inl ((keepBroken_of_add hadd hadded).resolve_right (ne_keepBroken_of_valued hname))
    · exact .inr (List.mem_cons_of_mem _ hlater)
  | case10 given argument name setting hname value arguments text hplain added hadd hword ih =>
    obtain hadded | hlater := ih hread
    · exact .inl ((keepBroken_of_add hadd hadded).resolve_right (ne_keepBroken_of_valued hname))
    · exact .inr (List.mem_cons_of_mem _ (List.mem_cons_of_mem _ hlater))
  | case16 given argument arguments name hname hversion hhelp added hadd hword ih =>
    obtain hadded | hlater := ih hread
    · obtain hbefore | hflag := keepBroken_of_add hadd hadded
      · exact .inl hbefore
      · rw [eq_of_named hword, eq_of_flags hflag]
        exact .inr List.mem_cons_self
    · exact .inr (List.mem_cons_of_mem _ hlater)
  | case3 | case4 | case6 | case8 | case9 | case11 | case12 | case13 | case14 | case15 =>
    contradiction

end Given

namespace Request

variable {arguments : List Bytes} {request : Request}

/-- Arguments that are accepted make a request of what they set. -/
theorem exists_given (hrequest : ofArguments arguments = .ok request) :
    ∃ given, Given.nothing.read arguments = .ok given ∧ given.request? = some request := by
  unfold ofArguments at hrequest
  cases hread : Given.nothing.read arguments with
  | error refusal => simp [hread] at hrequest
  | ok given =>
    simp only [hread] at hrequest
    cases hgiven : given.request? with
    | none => simp [hgiven] at hrequest
    | some made =>
      simp only [hgiven] at hrequest
      exact ⟨given, rfl, hgiven.trans (congrArg some (Except.ok.inj hrequest))⟩

/-- There is always a width. -/
theorem widths_ne_nil (hrequest : ofArguments arguments = .ok request) : request.widths ≠ [] := by
  obtain ⟨given, -, hgiven⟩ := exists_given hrequest
  obtain ⟨directory, -, rfl⟩ := Option.map_eq_some_iff.1 hgiven
  dsimp only
  split
  · exact List.cons_ne_nil _ _
  next hwidths => simpa using hwidths

/-- Broken pictures are left out unless an argument asks for them. -/
theorem skipBroken_of_notMem (hrequest : ofArguments arguments = .ok request)
    (hkeep : ascii "--keep-broken" ∉ arguments) : request.scan.skipBroken = true := by
  obtain ⟨given, hread, hgiven⟩ := exists_given hrequest
  obtain ⟨directory, -, rfl⟩ := Option.map_eq_some_iff.1 hgiven
  have hnot : given.keepBroken = false := by
    refine Bool.eq_false_iff.2 fun hgivenKeeps => ?_
    exact hkeep ((Given.keepBroken_of_read hread hgivenKeeps).resolve_left nofun)
  simp [hnot]

/-! ## The run -/

/-- The widths of a run: those of the request and then those on its input. -/
def allWidths (request : Request) (input : Bytes) : List Float :=
  request.widths ++ if request.inputWidths then Command.widths input else []

/-- The pictures of the scan of a request; none if its directory is none. -/
def items (request : Request) (tree : Tree) : List Picture :=
  match ((Scanner.fresh request.scan).scan tree request.directory).1 with
  | .ok (items, _) => items
  | .error _ => []

/-- The triggers of a run, on a tree that does not change. -/
def queue (request : Request) (tree : Tree) (input : Bytes) : List (Tree × Trigger) :=
  (request.triggers input).map fun trigger => (tree, trigger)

/-- The first width is loaded, and all others are resizes. -/
theorem turns_queue {tree : Tree} (hwidths : request.widths ≠ [])
    (hdirectory : tree.target? request.directory = some .directory) (input : Bytes) :
    ∃ first others, request.allWidths input = first :: others ∧
      Session.turns request.session.root request.session.scanner (request.queue tree input) =
        .loaded first (request.items tree) :: others.map .resized := by
  obtain ⟨first, others, hfirst⟩ := List.exists_cons_of_ne_nil hwidths
  let later := if request.inputWidths then Command.widths input else []
  have htriggers : request.triggers input = .load first :: (others ++ later).map .resize := by
    rw [triggers, hfirst]
    cases hinput : request.inputWidths <;> simp [later, hinput]
  have hqueue : request.queue tree input =
      (tree, .load first) :: (others ++ later).map fun width => (tree, .resize width) := by
    rw [queue, htriggers, List.map_cons, List.map_map]
    rfl
  refine ⟨first, others ++ later, by rw [allWidths, hfirst, List.cons_append], ?_⟩
  have hitems : request.items tree =
      match (request.session.scanner.scan tree request.session.root).1 with
      | .ok (items, _) => items
      | .error _ => [] := rfl
  obtain ⟨hnot, -⟩ | ⟨-, pictures, cache, counts, hscan⟩ :=
    request.session.scanner.scan_cases tree request.session.root
  · contradiction
  · rw [hqueue, Session.turns, Session.turn, hitems, hscan]
    dsimp only
    rw [Session.turns_resized]

/-- The passes of a run on a tree: the pictures of its scan at every width. -/
def passes (request : Request) (tree : Tree) (input : Bytes) : List Pass :=
  (request.allWidths input).flatMap (request.session.passesFor (request.items tree))

/-- They are those of its turns. -/
theorem passes_queue {tree : Tree} (hwidths : request.widths ≠ [])
    (hdirectory : tree.target? request.directory = some .directory) (input : Bytes) :
    request.session.passes
        (Session.turns request.session.root request.session.scanner (request.queue tree input)) =
      request.passes tree input := by
  obtain ⟨first, others, hall, hturns⟩ := turns_queue hwidths hdirectory input
  rw [hturns, passes, hall, Session.passes_loaded]

/-- The run of a request before its first trigger. -/
def start (request : Request) : Run Sink :=
  ⟨request.session, .zero, .fresh request.format .unlimited⟩

/-- How the program ends after a run that came to an outcome. -/
def endingAfter (counts : SessionCounts) : Except OutputFault Unit → Ending
  | .ok () => endingOf counts
  | .error fault => .failure (.output fault)

/-- A request for a directory ends as its run does. -/
theorem ending_execute {tree : Tree} {input : Bytes}
    (hdirectory : tree.target? request.directory = some .directory)
    {outcome : Except OutputFault Unit} {rest : List (Tree × Trigger)} {last : Run Sink}
    (htake : request.start.takeAll Sink.receiver (request.queue tree input) =
      (outcome, rest, last)) :
    (request.execute tree input).ending = endingAfter last.counts outcome := by
  have hqueue : (request.triggers input).map (fun trigger => (tree, trigger)) =
    request.queue tree input := rfl
  have hstart : (⟨request.session, .zero, .fresh request.format .unlimited⟩ : Run Sink) =
    request.start := rfl
  rw [execute, if_neg (not_not.2 hdirectory), Session.run, hqueue, hstart, htake]
  cases outcome <;> rfl

/-- A request for a directory fails if there is no pass, or if the output gives up. -/
theorem code_execute_ne_zero_iff {tree : Tree} (hwidths : request.widths ≠ [])
    (hdirectory : tree.target? request.directory = some .directory) (input : Bytes) :
    (request.execute tree input).ending.code ≠ 0 ↔ request.passes tree input = [] ∨
      ∃ fault, (Sink.receiver.feed (.fresh request.format .unlimited)
        ((request.passes tree input).flatMap Pass.calls)).1 = .error fault := by
  obtain ⟨first, others, -, hturns⟩ := turns_queue hwidths hdirectory input
  obtain ⟨rest, last, htake, -, hcounts⟩ :=
    Run.takeAll_passes Sink.receiver (request.queue tree input) request.start
  have hsession : request.start.session = request.session := rfl
  have hstate : request.start.state = .fresh request.format .unlimited := rfl
  rw [hsession, hstate, passes_queue hwidths hdirectory] at htake hcounts
  rw [ending_execute hdirectory htake]
  cases houtcome : (Sink.receiver.feed (.fresh request.format .unlimited)
    ((request.passes tree input).flatMap Pass.calls)).1 with
  | error fault => simp [endingAfter, Ending.code]
  | ok =>
    obtain ⟨hcount, hsum⟩ := hcounts houtcome
    rw [hturns, List.length_cons] at hsum
    have hnothing : request.start.counts.passes = 0 ∧ request.start.counts.failures = 0 := ⟨rfl, rfl⟩
    rw [endingAfter, endingOf]
    by_cases hnone : request.passes tree input = []
    · rw [hnone, List.length_nil] at hcount
      rw [if_pos (by omega)]
      simp [Ending.code, hnone]
    · have hsome := List.length_pos_iff.2 hnone
      rw [if_neg (by omega)]
      simp [Ending.code, hnone]

/-- There is no pass if a picture without height is to be shown in every container. -/
theorem passes_eq_nil_iff (hwidths : request.widths ≠ []) (tree : Tree) (input : Bytes) :
    request.passes tree input = [] ↔
      (∃ item ∈ request.items tree, item.dimensions.height = 0) ∧
        ∀ width ∈ request.allWidths input, IsProper width := by
  rw [passes, List.flatMap_eq_nil_iff]
  simp only [Session.passesFor_eq_nil_iff]
  constructor
  · intro hnone
    obtain ⟨first, others, hfirst⟩ := List.exists_cons_of_ne_nil hwidths
    have hmem : first ∈ request.allWidths input := by simp [allWidths, hfirst]
    exact ⟨(hnone first hmem).2, fun width hwidth => (hnone width hwidth).1⟩
  · rintro ⟨hheight, hproper⟩ width hwidth
    exact ⟨hproper width hwidth, hheight⟩

/-- A path that is no text is shown if its picture is shown in some container. -/
theorem exists_not_pathsAreText_iff (tree : Tree) (input : Bytes) :
    (∃ pass ∈ request.passes tree input, ¬PathsAreText pass.rows) ↔
      (∀ item ∈ request.items tree, item.dimensions.height ≠ 0) ∧
        (∃ width ∈ request.allWidths input, IsProper width) ∧
        ∃ item ∈ request.items tree, ¬Utf8.isValid item.path := by
  constructor
  · rintro ⟨pass, hpass, hnot⟩
    obtain ⟨width, hwidth, hshown⟩ := List.mem_flatMap.1 hpass
    obtain ⟨hproper, hheights, hpath⟩ :=
      (Session.exists_not_pathsAreText_iff _ _ _).1 ⟨pass, hshown, hnot⟩
    exact ⟨hheights, ⟨width, hwidth, hproper⟩, hpath⟩
  · rintro ⟨hheights, ⟨width, hwidth, hproper⟩, hpath⟩
    obtain ⟨pass, hshown, hnot⟩ :=
      (Session.exists_not_pathsAreText_iff request.session _ _).2 ⟨hproper, hheights, hpath⟩
    exact ⟨pass, List.mem_flatMap.2 ⟨width, hwidth, hshown⟩, hnot⟩

/-- A scan that leaves out broken pictures returns none without height. -/
theorem height_ne_zero_of_skipBroken (hskips : request.scan.skipBroken = true) {tree : Tree}
    {item : Picture} (hitem : item ∈ request.items tree) : item.dimensions.height ≠ 0 := by
  obtain ⟨-, hscan⟩ | ⟨-, pictures, cache, counts, hscan⟩ :=
    (Scanner.fresh request.scan).scan_cases tree request.directory
  · rw [items, hscan] at hitem
    contradiction
  · rw [items, hscan] at hitem
    exact (item.isBroken_eq_false_iff.1 (Scanner.isBroken_of_mem_select hskips hitem)).2

end Request

/-- The command fails in three cases and in no other. With an output that accepts everything, on a
tree that does not change, these are: there is no directory; a picture has no height, and all
widths are those of containers; or a document is to be written, all pictures have a height, some
width is that of a container, and some path is no text. Unless broken pictures are asked for, the
second case does not happen. -/
theorem run_fails_iff (tree : Tree) (arguments : List Bytes) (input : Bytes) {request : Request}
    (hrequest : Request.ofArguments arguments = .ok request) :
    let items := request.items tree
    let widths := request.allWidths input
    ((run tree arguments input).ending.code ≠ 0 ↔
      tree.target? request.directory ≠ some .directory ∨
      ((∃ item ∈ items, item.dimensions.height = 0) ∧ ∀ width ∈ widths, IsProper width) ∨
      (request.format = .json ∧ (∀ item ∈ items, item.dimensions.height ≠ 0) ∧
        (∃ width ∈ widths, IsProper width) ∧ ∃ item ∈ items, ¬Utf8.isValid item.path)) ∧
    (ascii "--keep-broken" ∉ arguments → ∀ item ∈ items, item.dimensions.height ≠ 0) := by
  intro items widths
  have hwidths := Request.widths_ne_nil hrequest
  constructor
  · rw [run, hrequest]
    dsimp only
    by_cases hdirectory : tree.target? request.directory = some .directory
    · rw [Request.code_execute_ne_zero_iff hwidths hdirectory,
        Sink.feed_fresh_eq_error_iff Writer.acceptsAll_unlimited,
        Request.passes_eq_nil_iff hwidths, Request.exists_not_pathsAreText_iff]
      simp only [hdirectory, ne_eq, not_true_eq_false, false_or, items, widths]
    · simp [Request.execute, hdirectory, Ending.code]
  · intro hkeep item hitem
    exact Request.height_ne_zero_of_skipBroken (Request.skipBroken_of_notMem hrequest hkeep) hitem

/-- A directory with one picture, whose path is no text. -/
def misnamed : Tree := Tree.empty.write (ascii "g/" ++ 0xFF :: ascii ".gif")
  (ascii "GIF89a" ++ [3, 0, 2, 0, 0, 0, 0, 0x2C, 0, 0, 0, 0]) 1000000000

/-- The request for its document. -/
def described : Request := ⟨ascii "g", [1280], false, .json, .standard, .standard⟩

/-- The document cannot be written, so the command fails, though the picture has a layout. -/
theorem run_fails_iff_misnamed :
    Request.ofArguments [ascii "--format=json", ascii "g"] = .ok described ∧
    (run misnamed [ascii "--format=json", ascii "g"] []).ending.code ≠ 0 := by
  have hrequest : Request.ofArguments [ascii "--format=json", ascii "g"] = .ok described := rfl
  have hfound : (⟨.standard, ascii "g", misnamed⟩ : Visit).found? =
      some [⟨ascii "g/" ++ 0xFF :: ascii ".gif", 1, 18⟩] :=
    Visit.found?_of_comesTo (by decide +kernel)
  have hdimensions : misnamed.dimensions (ascii "g/" ++ 0xFF :: ascii ".gif") = ⟨3, 2⟩ := by
    decide +kernel
  have hpictures : (misnamed.pictures (.empty 4096)
      [⟨ascii "g/" ++ 0xFF :: ascii ".gif", 1, 18⟩]).1 =
        [(⟨ascii "g/" ++ 0xFF :: ascii ".gif", 1, 18, ⟨3, 2⟩⟩, false)] := by
    rw [← hdimensions]
    rfl
  have hitems : described.items misnamed =
      [⟨ascii "g/" ++ 0xFF :: ascii ".gif", 1, 18, ⟨3, 2⟩⟩] := by
    have hvisit := congrArg Prod.fst (Visit.scan_of_found?_eq_some hfound (.empty 4096))
    rw [hpictures] at hvisit
    have hscan : ((Scanner.fresh described.scan).scan misnamed described.directory).1 = _ := hvisit
    rw [Request.items, hscan]
    rfl
  have hproper : IsProper 1280 := ⟨by decide +kernel, by decide +kernel⟩
  refine ⟨hrequest, (run_fails_iff misnamed _ [] hrequest).1.2 (.inr (.inr ⟨rfl, ?_, ?_, ?_⟩))⟩
  · rw [hitems]
    decide
  · exact ⟨1280, List.mem_cons_self, hproper⟩
  · rw [hitems]
    decide

end Command

end Gallery
