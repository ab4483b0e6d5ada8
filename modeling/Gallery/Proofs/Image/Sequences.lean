import Gallery.Image.Gif
import Gallery.Image.Jpeg
import Gallery.Image.Png
import Gallery.Proofs.Image.Settled
import Mathlib.Tactic.SplitIfs

/-!
# Headers made of pieces

The header of a GIF, a JPEG or a PNG file is a sequence of pieces that tell their own lengths:
blocks, segments or chunks. Every piece in front of the one that ends the search must be complete,
and what is behind a complete piece goes on with whatever follows the file. So by induction on the
pieces the search comes to the same end.
-/

namespace Gallery

namespace Gif

/-- Sub-blocks are read as before, and what is behind them goes on with what follows. -/
theorem subBlocks?_append {last held : Nat} {bytes behind : Bytes}
    (hblocks : subBlocks? last bytes = some (held, behind)) (more : Bytes) :
    subBlocks? last (bytes ++ more) = some (held, behind ++ more) := by
  fun_induction subBlocks? last bytes with
  | case1 => contradiction
  | case2 last rest =>
    obtain ⟨rfl, rfl⟩ := Prod.mk.inj (Option.some.inj hblocks)
    rw [List.cons_append, subBlocks?, if_pos rfl]
  | case3 last length rest hlength ih =>
    -- Were the sub-block cut off, there would be no terminator behind it.
    have hinside : length.toNat ≤ rest.length := by
      rcases Nat.le_total length.toNat rest.length with hinside | hbehind
      · exact hinside
      · rw [List.drop_eq_nil_of_le hbehind, subBlocks?] at hblocks
        contradiction
    rw [List.cons_append, subBlocks?, if_neg hlength, List.drop_append_of_le_length hinside]
    exact ih hblocks

/-- A block that is reached stays in reach. -/
theorem persists_reachesBlock (behindExtension : Bool) : Persists (reachesBlock behindExtension) := by
  intro bytes hreached more
  fun_induction reachesBlock behindExtension bytes with
  | case1 => contradiction
  | case2 behindExtension kind =>
    cases more with
    | nil => simpa [reachesBlock] using hreached
    | cons label more =>
      -- A byte that is the last of its file is only accepted as the trailer.
      have hkind : kind ≠ extensionByte := by
        obtain rfl : kind = trailerByte := by simpa using (Bool.and_eq_true_iff.1 hreached).2
        decide
      rw [List.singleton_append, reachesBlock, if_pos hkind]
  | case3 behindExtension kind label rest hkind =>
    rw [List.cons_append, List.cons_append, reachesBlock, if_pos hkind]
  | case4 => contradiction
  | case5 => contradiction
  | case6 behindExtension kind label rest hkind hlabel last behind hblocks ih =>
    rw [Bool.and_eq_true] at hreached
    have hmore := subBlocks?_append hblocks more
    rw [List.cons_append, List.cons_append, reachesBlock, if_neg hkind, if_neg hlabel]
    split
    next hnone =>
      rw [hmore] at hnone
      contradiction
    next last' behind' hsome =>
      obtain ⟨rfl, rfl⟩ := Prod.mk.inj (Option.some.inj (hmore.symm.trans hsome))
      rw [Bool.and_eq_true]
      exact ⟨hreached.1, ih hreached.2⟩

/-- The dimensions of a GIF file are settled. -/
theorem settled_dimensions? : Settled dimensions? := by
  unfold dimensions?
  apply (settled_slice? 0 6).bind
  intro signature
  apply Settled.ite (fun _ _ => rfl) (settled_const _)
  apply (settled_little? 6 2).bind
  intro width
  apply (settled_little? 8 2).bind
  intro height
  apply (settled_little? 10 1).bind
  intro flags
  have hnil : reachesBlock false [] = false := by rw [reachesBlock]
  exact .guard ((persists_reachesBlock false).drop hnil _) (settled_const _)

end Gif

namespace Jpeg

/-- A body that is there stays there. -/
theorem settled_body? (code : UInt8) (stated : Nat) : Settled (body? code stated) := by
  unfold body?
  apply Settled.ite (fun _ _ => rfl) (settled_slice? _ _)
  apply Settled.ite (fun _ _ => rfl) _ (settled_slice? _ _)
  have hnote (name : Bytes) : Settled fun rest : Bytes =>
      if name = transformName && stated < 12 then none else slice? rest 0 stated :=
    .ite (fun _ _ => rfl) (settled_const _) (settled_slice? _ _)
  intro body rest hbody more
  dsimp only at hbody ⊢
  split at hbody
  next => contradiction
  next name hname =>
    have hmore : slice? (rest ++ more) 0 5 = some name := settled_slice? 0 5 hname more
    rw [hmore]
    exact hnote name hbody more

/-- A body is no longer than what follows its length. -/
theorem length_le_of_body? {code : UInt8} {stated : Nat} {rest body : Bytes}
    (hbody : body? code stated rest = some body) : body.length ≤ rest.length := by
  have hslice (length : Nat) (hslice : slice? rest 0 length = some body) :
      body.length ≤ rest.length := by
    rw [← (slice?_eq_some_iff.1 hslice).2, List.drop_zero, List.length_take]
    exact Nat.min_le_right _ _
  unfold body? at hbody
  split_ifs at hbody
  · exact hslice _ hbody
  · split at hbody
    next => contradiction
    next => exact hslice _ (Option.ite_none_left_eq_some.1 hbody).2
  · exact hslice _ hbody

/-- What comes of a segment whose body is there. -/
theorem scan_segment {armed : Bool} {frame : Option Frame} {code l1 l0 : UInt8} {rest body : Bytes}
    (hfill : ¬code = 0xFF) (hskip : ¬(!armed || code = 0) = true)
    (hrefused : ¬isRefusedCode code = true) (hlength : ¬ofBigEndian [l1, l0] < 2)
    (hbody : body? code (ofBigEndian [l1, l0] - 2) rest = some body) :
    scan armed frame (code :: l1 :: l0 :: rest) =
      if code = scanCode then
        frame.bind fun frame => if isScan frame body then some frame.dimensions else none
      else if isFrameCode code then
        match frame, frame? body with
        | none, some frame => scan false (some frame) (rest.drop body.length)
        | _, _ => none
      else if isWellFormed code body then scan false frame (rest.drop body.length)
      else none := by
  rw [scan, if_neg hfill, if_neg hskip, if_neg hrefused]
  simp only [if_neg hlength, hbody]
  cases frame <;> rfl

/-- Segments are gone through as before, since each of them is complete. -/
theorem settled_scan (armed : Bool) (frame : Option Frame) : Settled (scan armed frame) := by
  intro dimensions bytes hfound more
  fun_induction scan armed frame bytes with
  -- The file ends too early or is refused, so there are no dimensions.
  | case1 | case4 | case5 | case6 | case8 | case9 | case11 | case13 | case14 => contradiction
  | case2 armed frame rest ih =>
    unfold scan
    exact ih hfound
  | case3 armed frame code rest hfill hskip ih =>
    unfold scan
    simp only [List.cons_append, if_neg hfill, if_pos hskip]
    exact ih hfound
  | case7 armed l1 l0 rest length hlength body frame hscan hfill hskip hrefused hbody =>
    have hmore := settled_body? _ _ hbody more
    simp only [List.cons_append, scan_segment hfill hskip hrefused hlength hmore, if_true,
      Option.bind_some, if_pos hscan]
    exact hfound
  | case10 armed code hfill hskip hrefused l1 l0 rest length hlength body hbody behind hscan hframe
      frame hread ih =>
    have hmore := settled_body? _ _ hbody more
    simp only [List.cons_append, scan_segment hfill hskip hrefused hlength hmore, if_neg hscan,
      if_pos hframe, hread, List.drop_append_of_le_length (length_le_of_body? hbody)]
    exact ih hfound
  | case12 armed frame code hfill hskip hrefused l1 l0 rest length hlength body hbody behind hscan
      hframe hformed ih =>
    have hmore := settled_body? _ _ hbody more
    simp only [List.cons_append, scan_segment hfill hskip hrefused hlength hmore, if_neg hscan,
      if_neg hframe, if_pos hformed, List.drop_append_of_le_length (length_le_of_body? hbody)]
    exact ih hfound

/-- The dimensions of a JPEG file are settled. -/
theorem settled_dimensions? : Settled dimensions? := by
  intro dimensions content hfound more
  unfold dimensions? at hfound ⊢
  split at hfound
  next rest => exact settled_scan false none hfound more
  next => contradiction

end Jpeg

namespace Png

/-- What comes of a chunk that can be taken in. -/
theorem reachesData_chunk {header : Header} {progress after : Progress}
    {l3 l2 l1 l0 k0 k1 k2 k3 : UInt8} {rest stored : Bytes}
    (hkind : ¬[k0, k1, k2, k3] = ascii "IDAT")
    (hplaced : ¬misplacedKinds.contains [k0, k1, k2, k3] = true)
    (hstored : slice? rest (ofBigEndian [l3, l2, l1, l0]) 4 = some stored)
    (hafter : progress.step? header [k0, k1, k2, k3] (rest.take (ofBigEndian [l3, l2, l1, l0]))
      (isChecksum ([k0, k1, k2, k3] ++ rest.take (ofBigEndian [l3, l2, l1, l0])) stored) =
        some after) :
    reachesData header progress (l3 :: l2 :: l1 :: l0 :: k0 :: k1 :: k2 :: k3 :: rest) =
      reachesData header after (rest.drop (ofBigEndian [l3, l2, l1, l0] + 4)) := by
  rw [reachesData, if_neg hkind, if_neg hplaced]
  simp only [hstored, hafter]

/-- Chunks are gone through as before, since each of them is complete. -/
theorem persists_reachesData (header : Header) (progress : Progress) :
    Persists (reachesData header progress) := by
  intro bytes hreached more
  fun_induction reachesData header progress bytes with
  | case2 | case3 | case4 | case6 => contradiction
  | case1 progress l3 l2 l1 l0 k0 k1 k2 k3 rest kind hkind =>
    simp only [List.cons_append, reachesData]
    rw [if_pos hkind]
    exact hreached
  | case5 progress l3 l2 l1 l0 k0 k1 k2 k3 rest length kind hkind hplaced stored hstored body after
      hafter ih =>
    have hlength := (slice?_eq_some_iff.1 hstored).1
    have hbody : (rest ++ more).take length = body := List.take_append_of_le_length (by omega)
    have hmore := settled_slice? _ _ hstored more
    simp only [List.cons_append]
    rw [reachesData_chunk hkind hplaced hmore (by rw [hbody]; exact hafter),
      List.drop_append_of_le_length hlength]
    exact ih hreached

/-- The dimensions of a PNG file are settled. -/
theorem settled_dimensions? : Settled dimensions? := by
  unfold dimensions?
  apply (settled_slice? 0 8).bind
  intro start
  apply Settled.ite (fun _ _ => rfl) (settled_const _)
  apply (settled_slice? 8 8).bind
  intro first
  apply Settled.ite (fun _ _ => rfl) (settled_const _)
  apply (settled_slice? 12 17).bind
  intro kindAndBody
  apply (settled_slice? 29 4).bind
  intro stored
  apply Settled.ite (fun _ _ => rfl) (settled_const _)
  apply (settled_slice? 16 13).bind
  intro body
  apply (settled_const _).bind
  intro header
  have hnil : reachesData header .start [] = false := by
    rw [reachesData]
    simp
  exact .guard ((persists_reachesData header .start).drop hnil 33) (settled_const _)

end Png

end Gallery
