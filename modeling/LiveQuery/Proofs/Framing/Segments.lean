import LiveQuery.Framing.Lines

/-!
# Proofs/Framing/Segments — lines are the segments between line feeds

`segmentLines` says what an input is to be read as, from its bytes alone: they are cut at the line
feeds, and **each segment is judged by itself**, by its length; one carriage return right before the
line feed is taken off.  What follows the last line feed is a segment too, unless it is empty.

Reading through a buffer gives exactly these lines, however the bytes were cut into pieces
(`readLines_eq_segmentLines`).  One read takes what the first segment needs and leaves the rest:
`readLine_of_segment` for a segment that a line feed ends, `readLine_of_last` for one that the input
ends.  Bytes that are read as they arrive give the same lines (`linesOf_eq_segmentLines`).
-/

namespace LiveQuery

open LineReader (lineFeed carriageReturn)

variable {limit room : Nat} {pieces : Pieces} {seg rest bs : List UInt8}

/-! ## The segments of an input -/

/-- **A segment that a line feed ends**: one carriage return at its end is taken off, and counts. -/
def Line.ofSegment (limit : Nat) (seg : List UInt8) : Line :=
  if seg.length ≤ limit then .bytes (if seg.getLast? = some 13 then seg.dropLast else seg)
  else .tooLong

/-- **A segment that the end of the input ends**: nothing is taken off it. -/
def Line.ofLast (limit : Nat) (seg : List UInt8) : Line :=
  if seg.length ≤ limit then .bytes seg else .tooLong

/-- **The lines of an input**, segment by segment. -/
def segmentLines (limit : Nat) (bs : List UInt8) : List Line :=
  let segments := bs.splitOn lineFeed
  segments.dropLast.map (Line.ofSegment limit)
    ++ (segments.getLast?.filter (· ≠ [])).toList.map (Line.ofLast limit)

/-- The reader takes the same carriage return off. -/
theorem Line.ofSegment_eq (limit : Nat) (seg : List UInt8) :
    Line.ofSegment limit seg
      = if seg.length ≤ limit then .bytes (Pieces.dropReturn seg) else .tooLong := rfl

theorem segmentLines_nil (limit : Nat) : segmentLines limit [] = [] := rfl

theorem segmentLines_cons (hseg : lineFeed ∉ seg) :
    segmentLines limit (seg ++ lineFeed :: rest)
      = Line.ofSegment limit seg :: segmentLines limit rest := by
  rw [segmentLines, List.splitOn_append_cons_self_of_not_mem hseg]
  have hne := List.splitOn_ne_nil lineFeed rest
  rw [List.dropLast_cons_of_ne_nil hne, List.getLast?_cons_of_ne_nil hne]
  rfl

theorem segmentLines_last (hbs : lineFeed ∉ bs) (hne : bs ≠ []) :
    segmentLines limit bs = [Line.ofLast limit bs] := by
  have hkept : (some bs).filter (fun seg => decide (seg ≠ [])) = some bs :=
    if_pos (decide_eq_true hne)
  rw [segmentLines, List.splitOn_eq_singleton hbs]
  exact congrArg (fun last : Option (List UInt8) => last.toList.map (Line.ofLast limit)) hkept

/-- An input is empty, or a last segment, or begins with a segment that a line feed ends. -/
theorem segment_cases (bs : List UInt8) :
    bs = [] ∨ (lineFeed ∉ bs ∧ bs ≠ []) ∨
      ∃ seg rest, lineFeed ∉ seg ∧ bs = seg ++ lineFeed :: rest := by
  by_cases hmem : lineFeed ∈ bs
  · obtain ⟨seg, rest, hbs, hseg⟩ := List.eq_append_cons_of_mem hmem
    exact .inr (.inr ⟨seg, rest, hseg, hbs⟩)
  · by_cases hne : bs = []
    · exact .inl hne
    · exact .inr (.inl ⟨hmem, hne⟩)

/-! ## Up to a line feed, and after it -/

/-- Bytes up to the first line feed and with it; all of them if there is none. -/
def throughLineFeed (bs : List UInt8) : List UInt8 :=
  match bs.idxOf? lineFeed with
  | some i => bs.take (i + 1)
  | none => bs

/-- Bytes after the first line feed; none of them if there is none. -/
def afterLineFeed (bs : List UInt8) : List UInt8 :=
  match bs.idxOf? lineFeed with
  | some i => bs.drop (i + 1)
  | none => []

theorem idxOf?_segment (hseg : lineFeed ∉ seg) (rest : List UInt8) :
    (seg ++ lineFeed :: rest).idxOf? lineFeed = some seg.length := by
  rw [List.idxOf?_eq_some_iff]
  refine ⟨by simp, by simp, fun j hj hmem => hseg ?_⟩
  rw [List.getElem_append_left hj] at hmem
  exact hmem ▸ List.getElem_mem hj

theorem throughLineFeed_segment (hseg : lineFeed ∉ seg) (rest : List UInt8) :
    throughLineFeed (seg ++ lineFeed :: rest) = seg ++ [lineFeed] := by
  rw [throughLineFeed, idxOf?_segment hseg]
  exact List.take_length_add_append 1

theorem afterLineFeed_segment (hseg : lineFeed ∉ seg) (rest : List UInt8) :
    afterLineFeed (seg ++ lineFeed :: rest) = rest := by
  rw [afterLineFeed, idxOf?_segment hseg]
  exact List.drop_length_add_append 1

theorem throughLineFeed_of_notMem (h : lineFeed ∉ bs) : throughLineFeed bs = bs := by
  rw [throughLineFeed, List.idxOf?_eq_none_iff.mpr h]

theorem afterLineFeed_of_notMem (h : lineFeed ∉ bs) : afterLineFeed bs = [] := by
  rw [afterLineFeed, List.idxOf?_eq_none_iff.mpr h]

/-- The first line feed decides. -/
theorem throughLineFeed_append_of_mem (h : lineFeed ∈ bs) (rest : List UInt8) :
    throughLineFeed (bs ++ rest) = throughLineFeed bs := by
  obtain ⟨seg, more, rfl, hseg⟩ := List.eq_append_cons_of_mem h
  rw [List.append_assoc, List.cons_append, throughLineFeed_segment hseg,
    throughLineFeed_segment hseg]

theorem afterLineFeed_append_of_mem (h : lineFeed ∈ bs) (rest : List UInt8) :
    afterLineFeed (bs ++ rest) = afterLineFeed bs ++ rest := by
  obtain ⟨seg, more, rfl, hseg⟩ := List.eq_append_cons_of_mem h
  rw [List.append_assoc, List.cons_append, afterLineFeed_segment hseg, afterLineFeed_segment hseg]

/-- Bytes without a line feed only come before. -/
theorem throughLineFeed_append_of_notMem (h : lineFeed ∉ bs) (rest : List UInt8) :
    throughLineFeed (bs ++ rest) = bs ++ throughLineFeed rest := by
  by_cases hmem : lineFeed ∈ rest
  · obtain ⟨seg, more, rfl, hseg⟩ := List.eq_append_cons_of_mem hmem
    rw [← List.append_assoc, throughLineFeed_segment (List.not_mem_append h hseg),
      throughLineFeed_segment hseg, List.append_assoc]
  · rw [throughLineFeed_of_notMem (List.not_mem_append h hmem), throughLineFeed_of_notMem hmem]

theorem afterLineFeed_append_of_notMem (h : lineFeed ∉ bs) (rest : List UInt8) :
    afterLineFeed (bs ++ rest) = afterLineFeed rest := by
  by_cases hmem : lineFeed ∈ rest
  · obtain ⟨seg, more, rfl, hseg⟩ := List.eq_append_cons_of_mem hmem
    rw [← List.append_assoc, afterLineFeed_segment (List.not_mem_append h hseg),
      afterLineFeed_segment hseg]
  · rw [afterLineFeed_of_notMem (List.not_mem_append h hmem), afterLineFeed_of_notMem hmem]

namespace Pieces

/-- **What is taken depends on the bytes alone**: so many of them, up to their first line feed. -/
theorem takeLine_fst (room : Nat) (pieces : Pieces) :
    (takeLine room pieces).1 = throughLineFeed (pieces.flatten.take room) := by
  induction pieces generalizing room with
  | nil => rw [takeLine, List.flatten_nil, List.take_nil]; rfl
  | cons piece pieces ih =>
    rw [takeLine, List.flatten_cons, List.take_append]
    split
    case h_1 i hi =>
      obtain ⟨hlt, -⟩ := List.idxOf?_eq_some_iff.mp hi
      have hmem : lineFeed ∈ piece.take room := by
        rw [← List.isSome_idxOf?, hi, Option.isSome_some]
      rw [throughLineFeed_append_of_mem hmem, throughLineFeed, hi]
      dsimp only
      rw [List.take_take, Nat.min_eq_left (Nat.le_trans hlt (List.length_take_le ..))]
    case h_2 hnone =>
      have hfree := List.idxOf?_eq_none_iff.mp hnone
      rw [throughLineFeed_append_of_notMem hfree]
      split
      case isTrue hroom =>
        rw [Nat.sub_eq_zero_of_le hroom, List.take_zero, throughLineFeed_of_notMem List.not_mem_nil,
          List.append_nil]
      case isFalse hroom =>
        rw [List.take_of_length_le (Nat.le_of_not_ge hroom), ← ih]

/-- **…and what is left is the rest of them.** -/
theorem exists_takeLine {taken : List UInt8}
    (h : throughLineFeed (pieces.flatten.take room) = taken) :
    ∃ left, takeLine room pieces = (taken, left) ∧ taken ++ left.flatten = pieces.flatten := by
  have htaken : (takeLine room pieces).1 = taken := (takeLine_fst room pieces).trans h
  exact ⟨_, Prod.ext htaken rfl, htaken ▸ takeLine_append room pieces⟩

/-- **What is left after skipping depends on the bytes alone.** -/
theorem skipLine_flatten (pieces : Pieces) :
    (skipLine pieces).flatten = afterLineFeed pieces.flatten := by
  induction pieces with
  | nil => rfl
  | cons piece pieces ih =>
    rw [skipLine, List.flatten_cons]
    split
    case h_1 i hi =>
      have hmem : lineFeed ∈ piece := by rw [← List.isSome_idxOf?, hi, Option.isSome_some]
      rw [afterLineFeed_append_of_mem hmem, afterLineFeed, hi, List.flatten_cons]
    case h_2 hnone =>
      rw [afterLineFeed_append_of_notMem (List.idxOf?_eq_none_iff.mp hnone), ih]

/-! ## One read -/

/-- **A line whose end is not among the bytes taken** is too long, and its rest is skipped. -/
theorem readLine_of_overlong (hfree : lineFeed ∉ pieces.flatten.take (limit + 1))
    (hlong : limit < pieces.flatten.length) :
    ∃ left, readLine limit pieces = (some .tooLong, left) ∧
      left.flatten = afterLineFeed (pieces.flatten.drop (limit + 1)) := by
  obtain ⟨left, htake, hall⟩ := exists_takeLine (throughLineFeed_of_notMem hfree)
  have hlength : (pieces.flatten.take (limit + 1)).length = limit + 1 :=
    List.length_take_of_le hlong
  have hleft : left.flatten = pieces.flatten.drop (limit + 1) :=
    List.append_cancel_left (hall.trans (List.take_append_drop ..).symm)
  refine ⟨skipLine left, ?_, by rw [skipLine_flatten, hleft]⟩
  rw [readLine, htake]
  dsimp only
  rw [if_neg (List.ne_nil_of_length_eq_add_one hlength),
    if_neg fun hlast => hfree (List.mem_of_getLast? hlast), if_neg (by omega)]

/-- **A segment that a line feed ends is read by itself**, and what comes after it is left. -/
theorem readLine_of_segment (limit : Nat) (hseg : lineFeed ∉ seg)
    (h : pieces.flatten = seg ++ lineFeed :: rest) :
    ∃ left, readLine limit pieces = (some (Line.ofSegment limit seg), left) ∧
      left.flatten = rest := by
  rw [Line.ofSegment_eq]
  split
  case isTrue hfits =>
    have htaken : throughLineFeed (pieces.flatten.take (limit + 1)) = seg ++ [lineFeed] := by
      rw [h, List.take_append, List.take_of_length_le (Nat.le_succ_of_le hfits),
        Nat.succ_sub hfits, List.take_succ_cons, throughLineFeed_segment hseg]
    obtain ⟨left, htake, hall⟩ := exists_takeLine htaken
    refine ⟨left, ?_, ?_⟩
    · rw [readLine, htake]
      dsimp only
      rw [if_neg (List.append_ne_nil_of_right_ne_nil _ (List.cons_ne_nil _ _)),
        if_pos List.getLast?_concat, List.dropLast_concat]
    · rw [h, List.append_assoc] at hall
      exact List.tail_eq_of_cons_eq (List.append_cancel_left hall)
  case isFalse hlong =>
    have hroom : limit + 1 ≤ seg.length := Nat.lt_of_not_le hlong
    have hfree : lineFeed ∉ pieces.flatten.take (limit + 1) := by
      rw [h, List.take_append_of_le_length hroom]
      exact fun hmem => hseg (List.mem_of_mem_take hmem)
    have hover : limit < pieces.flatten.length := by rw [h, List.length_append]; omega
    obtain ⟨left, hread, hleft⟩ := readLine_of_overlong hfree hover
    refine ⟨left, hread, ?_⟩
    rw [hleft, h, List.drop_append_of_le_length hroom,
      afterLineFeed_segment fun hmem => hseg (List.mem_of_mem_drop hmem)]

/-- **A segment that the end of the input ends is read by itself**, and nothing is left. -/
theorem readLine_of_last (limit : Nat) (hfree : lineFeed ∉ pieces.flatten)
    (hne : pieces.flatten ≠ []) :
    ∃ left, readLine limit pieces = (some (Line.ofLast limit pieces.flatten), left) ∧
      left.flatten = [] := by
  rw [Line.ofLast]
  split
  case isTrue hfits =>
    have htaken : throughLineFeed (pieces.flatten.take (limit + 1)) = pieces.flatten := by
      rw [List.take_of_length_le (Nat.le_succ_of_le hfits), throughLineFeed_of_notMem hfree]
    obtain ⟨left, htake, hall⟩ := exists_takeLine htaken
    refine ⟨left, ?_, List.append_right_eq_self.mp hall⟩
    rw [readLine, htake]
    dsimp only
    rw [if_neg hne, if_neg fun hlast => hfree (List.mem_of_getLast? hlast), if_pos hfits]
  case isFalse hlong =>
    have htake : lineFeed ∉ pieces.flatten.take (limit + 1) :=
      fun hmem => hfree (List.mem_of_mem_take hmem)
    obtain ⟨left, hread, hleft⟩ := readLine_of_overlong htake (Nat.lt_of_not_le hlong)
    refine ⟨left, hread, ?_⟩
    rw [hleft, afterLineFeed_of_notMem fun hmem => hfree (List.mem_of_mem_drop hmem)]

/-- **Without bytes a read finds the end.** -/
theorem readLine_of_nil (limit : Nat) (h : pieces.flatten = []) :
    ∃ left, readLine limit pieces = (none, left) := by
  have htaken : throughLineFeed (pieces.flatten.take (limit + 1)) = [] := by
    rw [h, List.take_nil, throughLineFeed_of_notMem List.not_mem_nil]
  obtain ⟨left, htake, -⟩ := exists_takeLine htaken
  exact ⟨left, by rw [readLine, htake]; rfl⟩

/-! ## Read after read -/

/-- **Reading line after line gives the lines of the segments**, however the bytes were cut into
pieces. -/
theorem readLines_eq_segmentLines (limit : Nat) (pieces : Pieces) :
    readLines limit pieces = segmentLines limit pieces.flatten := by
  induction hn : pieces.flatten.length using Nat.strongRecOn generalizing pieces with
  | _ n ih =>
    subst hn
    rw [readLines_eq]
    rcases segment_cases pieces.flatten with hnil | ⟨hfree, hne⟩ | ⟨seg, rest, hseg, hbs⟩
    · obtain ⟨left, hread⟩ := readLine_of_nil limit hnil
      rw [hread, hnil]
      rfl
    · obtain ⟨left, hread, hleft⟩ := readLine_of_last limit hfree hne
      rw [hread, segmentLines_last hfree hne]
      dsimp only
      rw [ih _ (readLine_lt hread) _ rfl, hleft, segmentLines_nil]
    · obtain ⟨left, hread, hleft⟩ := readLine_of_segment limit hseg hbs
      rw [hread, hbs, segmentLines_cons hseg]
      dsimp only
      rw [ih _ (readLine_lt hread) _ rfl, hleft]

end Pieces

/-! ## Bytes read as they arrive -/

namespace LineReader

theorem withoutReturn_reverse (seg : List UInt8) :
    (withoutReturn seg.reverse).reverse = Pieces.dropReturn seg := by
  rcases List.eq_nil_or_concat seg with rfl | ⟨before, b, rfl⟩
  · rfl
  · rw [List.concat_eq_append, List.reverse_append, List.reverse_singleton, List.singleton_append,
      withoutReturn, Pieces.dropReturn, List.getLast?_concat, List.dropLast_concat]
    by_cases hb : b = carriageReturn
    · rw [if_pos hb, if_pos (congrArg some hb), List.reverse_reverse]
    · rw [if_neg hb, if_neg fun h => hb (Option.some.inj h), List.reverse_cons,
        List.reverse_reverse]

/-- **Bytes without a line feed make the line grow**, and are held unless they are too many. -/
theorem feed_of_free (hfree : lineFeed ∉ bs) (r : LineReader) :
    ∃ held, r.feed bs = ([], ⟨r.limit, held, r.length + bs.length⟩) ∧
      (allows r.limit (r.length + bs.length) = true → held = bs.reverse ++ r.held) := by
  induction bs generalizing r with
  | nil => exact ⟨r.held, rfl, fun _ => rfl⟩
  | cons b bs ih =>
    rw [List.mem_cons, not_or] at hfree
    obtain ⟨hb, hbs⟩ := hfree
    let grown : LineReader :=
      ⟨r.limit, if allows r.limit (r.length + 1) then b :: r.held else [], r.length + 1⟩
    have hstep : r.step b = (none, grown) := if_neg (Ne.symm hb)
    obtain ⟨held, hfeed, hheld⟩ := ih hbs grown
    have hlength : grown.length + bs.length = r.length + (b :: bs).length := by
      rw [List.length_cons, Nat.add_right_comm]
      rfl
    refine ⟨held, ?_, fun hallowed => ?_⟩
    · rw [feed_cons, hstep, hfeed, hlength]
      rfl
    · have hfirst : allows r.limit (r.length + 1) = true := by
        cases hlimit : r.limit with
        | none => rfl
        | some n =>
          rw [hlimit] at hallowed
          have hle := of_decide_eq_true hallowed
          rw [List.length_cons] at hle
          exact decide_eq_true (by omega)
      have hgrown : grown.held = b :: r.held := if_pos hfirst
      rw [hheld (hlength ▸ hallowed), hgrown, List.reverse_cons, List.append_assoc,
        List.singleton_append]

/-- A segment that has been fed from the start is what it is to be read as, once a line feed ends
it, … -/
theorem ended_of_held {held : List UInt8} (h : seg.length ≤ limit → held = seg.reverse) :
    ended ⟨some limit, held, seg.length⟩ = Line.ofSegment limit seg := by
  rw [ended, Line.ofSegment_eq, allows]
  by_cases hfits : seg.length ≤ limit
  · rw [if_pos (decide_eq_true hfits), if_pos hfits, h hfits, withoutReturn_reverse]
  · rw [if_neg (by simpa using hfits), if_neg hfits]

/-- … or the end of the input does. -/
theorem finish_of_held {held : List UInt8} (h : seg.length ≤ limit → held = seg.reverse)
    (hne : seg ≠ []) : finish ⟨some limit, held, seg.length⟩ = some (Line.ofLast limit seg) := by
  rw [finish, Line.ofLast, allows, if_neg fun h0 => hne (List.length_eq_zero_iff.mp h0)]
  by_cases hfits : seg.length ≤ limit
  · rw [if_pos (decide_eq_true hfits), if_pos hfits, h hfits, List.reverse_reverse]
  · rw [if_neg (by simpa using hfits), if_neg hfits]

/-- **A segment, fed from the start.** -/
theorem feed_start_of_free (limit : Nat) (hfree : lineFeed ∉ seg) :
    ∃ held, (start (some limit)).feed seg = ([], ⟨some limit, held, seg.length⟩) ∧
      (seg.length ≤ limit → held = seg.reverse) := by
  obtain ⟨held, hfeed, hheld⟩ := feed_of_free hfree (start (some limit))
  have hzero : (start (some limit)).length + seg.length = seg.length := Nat.zero_add _
  rw [hzero] at hfeed hheld
  exact ⟨held, hfeed, fun hfits => (hheld (decide_eq_true hfits)).trans (List.append_nil _)⟩

end LineReader

/-- **Bytes that are read as they arrive give the same lines.** -/
theorem linesOf_eq_segmentLines (limit : Nat) (pieces : Pieces) :
    linesOf (some limit) pieces = segmentLines limit pieces.flatten := by
  rw [linesOf]
  generalize pieces.flatten = bs
  induction hn : bs.length using Nat.strongRecOn generalizing bs with
  | _ n ih =>
    subst hn
    rcases segment_cases bs with rfl | ⟨hfree, hne⟩ | ⟨seg, rest, hseg, rfl⟩
    · rfl
    · obtain ⟨held, hfeed, hheld⟩ := LineReader.feed_start_of_free limit hfree
      rw [segmentLines_last hfree hne, hfeed]
      dsimp only
      rw [LineReader.finish_of_held hheld hne]
      rfl
    · obtain ⟨held, hfeed, hheld⟩ := LineReader.feed_start_of_free limit hseg
      have hstep : LineReader.step ⟨some limit, held, seg.length⟩ lineFeed
          = (some (Line.ofSegment limit seg), .start (some limit)) := by
        rw [LineReader.step, if_pos rfl, LineReader.ended_of_held hheld]
      rw [segmentLines_cons hseg, LineReader.feed_append, hfeed, LineReader.feed_cons, hstep,
        ← ih rest.length (by simp; omega) rest rfl]
      rfl

/-! ## Lines as text -/

/-- The bytes of an array, one after the other. -/
theorem byteArray_toList (bs : ByteArray) : bs.toList = bs.data.toList := by
  have hloop : ∀ i r, ByteArray.toList.loop bs i r = r.reverse ++ bs.data.toList.drop i := by
    intro i r
    induction i, r using ByteArray.toList.loop.induct bs with
    | case1 i r hlt ih =>
      have hlength : i < bs.data.toList.length := hlt
      have hget : bs.get! i = bs.data.toList[i] := by
        rw [Array.getElem_toList]
        exact getElem!_pos bs.data i hlt
      rw [ByteArray.toList.loop, if_pos hlt, ih, hget, List.reverse_cons, List.append_assoc,
        List.singleton_append, List.getElem_cons_drop]
    | case2 i r hge =>
      rw [ByteArray.toList.loop, if_neg hge, List.drop_of_length_le (Nat.le_of_not_lt hge),
        List.append_nil]
  rw [ByteArray.toList, hloop]
  rfl

theorem toByteArray_toList (bs : ByteArray) : bs.data.toList.toByteArray = bs :=
  ByteArray.ext (Array.toList_inj.mp List.toList_data_toByteArray)

/-- **Bytes are read as the text that they write.** -/
theorem decodeUtf8?_eq_some_iff {s : String} : decodeUtf8? bs = some s ↔ encodeUtf8 s = bs := by
  rw [decodeUtf8?, String.fromUTF8?, encodeUtf8, byteArray_toList, String.toUTF8_eq_toByteArray]
  constructor
  · intro h
    split at h
    · obtain rfl := Option.some.inj h
      exact List.toList_data_toByteArray
    · cases h
  · rintro rfl
    rw [toByteArray_toList, dif_pos s.isValidUTF8]
    exact congrArg some (String.toByteArray_inj.mp rfl)

/-- **A line is read as a text if it is short enough and its bytes are those of the text.** -/
theorem text?_eq_some_iff {line : Line} {s : String} :
    line.text? = some s ↔ line = .bytes (encodeUtf8 s) := by
  cases line with
  | bytes bs => rw [Line.text?, decodeUtf8?_eq_some_iff, Line.bytes.injEq, eq_comm]
  | tooLong => exact iff_of_false (Option.some_ne_none _).symm Line.noConfusion

/-- **Every line is read by its own bytes**, whatever the pieces: reading goes on until the input
ends, and each segment between line feeds is a line if it is short enough, and too long otherwise;
its neighbours are not touched.  Bytes that are read as they arrive give the same lines.  A feed
yields those lines that are text, in order. -/
theorem lines_read_by_their_own_bytes (limit : Nat) (pieces : Pieces) :
    (Pieces.readLines limit pieces = match Pieces.readLine limit pieces with
      | (none, _) => []
      | (some line, rest) => line :: Pieces.readLines limit rest) ∧
    Pieces.readLines limit pieces = segmentLines limit pieces.flatten ∧
    linesOf (some limit) pieces = segmentLines limit pieces.flatten ∧
    feedLines pieces = (segmentLines 32768 pieces.flatten).filterMap Line.text? ∧
    ∀ (line : Line) (s : String), line.text? = some s ↔ line = .bytes (encodeUtf8 s) := by
  refine ⟨Pieces.readLines_eq limit pieces, Pieces.readLines_eq_segmentLines limit pieces,
    linesOf_eq_segmentLines limit pieces, ?_, fun _ _ => text?_eq_some_iff⟩
  rw [feedLines, Pieces.readLines_eq_segmentLines]
  rfl

/-- With room for three bytes, a carriage return is one of them. -/
example : segmentLines 3 [97, 98, 13, 10, 97, 98, 99, 13, 10, 97, 13]
    = [.bytes [97, 98], .tooLong, .bytes [97, 13]] := by decide

end LiveQuery
