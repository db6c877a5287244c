import LiveQuery.Framing.Connection
import LiveQuery.Proofs.Framing.Segments
import LiveQuery.Proofs.Json.Printed

/-!
# Proofs/Framing/Exchange — what is sent in lines arrives value by value

A value is sent as its text on a line of its own, and **the text can stand there**
(`Nested.standsAlone`): control characters are written as escapes, so none of its bytes ends the
line or is taken off its end, and it begins and ends with a character that is no blank, so there is
nothing to trim.  The two inputs are `Nested.all_isPrinted_write`, on the characters of the text,
and `le_of_mem_encodeUtf8`, which carries it to the bytes.

The receiving side sees bytes in pieces, and they may be cut anywhere: receiving piece after piece
is receiving all of it (`foldl_receive`).
-/

namespace LiveQuery

open Text
open LineReader (lineFeed carriageReturn)

/-! ## Texts on lines of their own -/

namespace Json

theorem toList_text (v : Json) : v.text.toList = write v := String.toList_ofList

/-- **A value whose text can stand on a line of its own**: the line does not end before the text
does, it is not blank, and nothing is trimmed off what is read. -/
structure StandsAlone (v : Json) : Prop where
  no_line_feed : '\n' ∉ v.text.toList
  not_blank : isBlankText v.text.toList = false
  trim_eq : trim v.text.toList = v.text.toList
  read_eq : read? v.text = some v

theorem Nested.standsAlone {v : Json} (h : Nested maxDepth v) : StandsAlone v := by
  have htrim : trim (write v) = write v := trim_eq_self (isTrimmed_write v)
  constructor
  · rw [toList_text]
    exact fun hmem => absurd (List.all_eq_true.mp h.all_isPrinted_write _ hmem) (by decide)
  · rw [toList_text, Bool.eq_false_iff, Ne, ← trim_eq_nil_iff, htrim]
    exact write_ne_nil v
  · rw [toList_text, htrim]
  · rw [read?, toList_text, readWithin?_write h]

end Json

/-! ## The bytes of a text -/

/-- The bytes of a text are those of its characters. -/
theorem encodeUtf8_eq (s : String) : encodeUtf8 s = s.toList.flatMap String.utf8EncodeChar := by
  rw [encodeUtf8, byteArray_toList, String.toUTF8_eq_toByteArray, ← String.utf8Encode_toList]
  exact List.toList_data_toByteArray

/-- **A byte that could be a control character is one**: the bytes of wide characters are larger. -/
theorem le_of_mem_utf8EncodeChar {c : Char} (h : Json.isPrinted c = true) :
    ∀ b ∈ String.utf8EncodeChar c, 0x20 ≤ b.toNat := by
  have hc : 0x20 ≤ c.toNat := of_decide_eq_true h
  have hval : c.val.toNat = c.toNat := rfl
  intro b hb
  rw [String.utf8EncodeChar.eq_1, hval] at hb
  split_ifs at hb
  all_goals
    simp only [List.mem_cons, List.not_mem_nil, or_false] at hb
    rcases hb with rfl | rfl | rfl | rfl
  all_goals
    rw [UInt8.toNat_ofNat']
    omega

theorem le_of_mem_encodeUtf8 {s : String} (h : s.toList.all Json.isPrinted = true) :
    ∀ b ∈ encodeUtf8 s, 0x20 ≤ b.toNat := by
  intro b hb
  rw [encodeUtf8_eq] at hb
  obtain ⟨c, hc, hb⟩ := List.mem_flatMap.mp hb
  exact le_of_mem_utf8EncodeChar (List.all_eq_true.mp h c hc) b hb

theorem encodeUtf8_append (s t : String) : encodeUtf8 (s ++ t) = encodeUtf8 s ++ encodeUtf8 t := by
  rw [encodeUtf8_eq, encodeUtf8_eq, encodeUtf8_eq, String.toList_append, List.flatMap_append]

/-! ## Lines as they arrive -/

namespace LineReader

/-- **A line feed ends what came before it**, which is the line if no carriage return is in it. -/
theorem feed_line {bs : List UInt8} (hfeed : lineFeed ∉ bs) (hreturn : carriageReturn ∉ bs) :
    (start none).feed (bs ++ [lineFeed]) = ([.bytes bs], start none) := by
  obtain ⟨held, hgrown, hheld⟩ := feed_of_free hfeed (start none)
  obtain rfl : held = bs.reverse := (hheld rfl).trans (List.append_nil _)
  have hended : ended ⟨none, bs.reverse, 0 + bs.length⟩ = .bytes bs := by
    have hkept : Pieces.dropReturn bs = bs :=
      if_neg fun hlast => hreturn (List.mem_of_getLast? hlast)
    rw [ended, allows, withoutReturn_reverse, hkept]
    rfl
  have hstep : step ⟨none, bs.reverse, 0 + bs.length⟩ lineFeed
      = (some (.bytes bs), start none) := by
    rw [step, if_pos rfl, hended]
  rw [feed_append, hgrown, feed_cons]
  exact congrArg (fun x : Option Line × LineReader => (x.1.toList, x.2)) hstep

end LineReader

namespace LineConn

variable {vs : List Json}

theorem receive_nil (c : LineConn) : c.receive [] = c := by
  rw [receive]
  split
  · rfl
  · have harrived : c.arrived ++ ([] : List Line).filterMap lineBytes? = c.arrived :=
      List.append_nil c.arrived
    simp only [LineReader.feed_nil, harrived]

/-- Two pieces are received like one. -/
theorem receive_receive (c : LineConn) (as bs : List UInt8) :
    (c.receive as).receive bs = c.receive (as ++ bs) := by
  obtain ⟨arrived, reader, ended⟩ := c
  cases ended with
  | true => rfl
  | false =>
    simp only [receive, Bool.false_eq_true, if_false, LineReader.feed_append, List.filterMap_append,
      List.append_assoc]

/-- **However the bytes are cut into pieces**, the same lines arrive. -/
theorem foldl_receive (c : LineConn) (pieces : List (List UInt8)) :
    pieces.foldl receive c = c.receive pieces.flatten := by
  induction pieces generalizing c with
  | nil => exact (receive_nil c).symm
  | cons piece pieces ih => rw [List.foldl_cons, ih, receive_receive, List.flatten_cons]

theorem encodeUtf8_frame (v : Json) : encodeUtf8 (frame v) = encodeUtf8 v.text ++ [lineFeed] := by
  have hend : encodeUtf8 "\n" = [lineFeed] := by rw [encodeUtf8_eq]; rfl
  rw [frame, encodeUtf8_append, hend]

/-- **Each value that was sent is a line that arrives.** -/
theorem feed_frames (hvs : ∀ v ∈ vs, v.Nested 127) :
    (LineReader.start none).feed (vs.flatMap fun v => encodeUtf8 (frame v))
      = (vs.map fun v => .bytes (encodeUtf8 v.text), .start none) := by
  induction vs with
  | nil => rfl
  | cons v vs ih =>
    obtain ⟨hv, hvs⟩ := List.forall_mem_cons.mp hvs
    have hprinted : v.text.toList.all Json.isPrinted = true := by
      rw [Json.toList_text]
      exact hv.all_isPrinted_write
    have hbytes := le_of_mem_encodeUtf8 hprinted
    have hline := LineReader.feed_line (fun hmem => absurd (hbytes _ hmem) (by decide))
      (fun hmem => absurd (hbytes _ hmem) (by decide))
    rw [List.flatMap_cons, LineReader.feed_append, encodeUtf8_frame, hline, ih hvs]
    rfl

/-- **A line that carries the text of a value is read as the value.** -/
theorem readLine?_text {v : Json} (h : v.StandsAlone) :
    readLine? (encodeUtf8 v.text) = some (.value v) := by
  have hread : Json.readWithin? Json.maxDepth v.text.toList = some v := h.read_eq
  rw [readLine?, decodeUtf8?_eq_some_iff.mpr rfl]
  simp only [h.not_blank, h.trim_eq, Reading.ofText, hread, Bool.false_eq_true, if_false]

/-- What has arrived is read value by value, up to the end. -/
theorem readUpTo_values (hvs : ∀ v ∈ vs, v.StandsAlone) (reader : LineReader) :
    (Connection.readUpTo (vs.length + 1)
        (.lines ⟨vs.map fun v => encodeUtf8 v.text, reader, true⟩)).1
      = vs.map .value ++ [.closed] := by
  induction vs with
  | nil => rfl
  | cons v vs ih =>
    obtain ⟨hv, hvs⟩ := List.forall_mem_cons.mp hvs
    have hread : Connection.read
        (.lines ⟨(v :: vs).map fun v => encodeUtf8 v.text, reader, true⟩)
        = (.value v, .lines ⟨vs.map fun v => encodeUtf8 v.text, reader, true⟩) := by
      simp only [Connection.read, read, List.map_cons, firstReading?, readLine?_text hv]
    rw [List.length_cons, Connection.readUpTo, hread]
    exact congrArg (Reading.value v :: ·) (ih hvs)

/-- **Written lines read back as the same values.**  Whatever values are sent one after the other,
none nested deeper than may be read: the text of each can stand on a line of its own, and however
the bytes are cut on their way,

* one line arrives for each value, and it is the bytes of its text;
* what is read, up to the end, are the values, integers as integers and floats as floats. -/
theorem written_lines_read_back (vs : List Json) (hvs : ∀ v ∈ vs, v.Nested 127) :
    (∀ v ∈ vs, v.StandsAlone) ∧
    ∀ pieces : List (List UInt8), pieces.flatten = vs.flatMap (fun v => encodeUtf8 (frame v)) →
      (pieces.foldl receive .start).arrived = vs.map (fun v => encodeUtf8 v.text) ∧
      (Connection.readAll (.lines (pieces.foldl receive .start).close)).1
        = vs.map .value ++ [.closed] := by
  have halone : ∀ v ∈ vs, v.StandsAlone := fun v hv => (hvs v hv).standsAlone
  refine ⟨halone, fun pieces hpieces => ?_⟩
  have hlines : (vs.map fun v => Line.bytes (encodeUtf8 v.text)).filterMap lineBytes?
      = vs.map fun v => encodeUtf8 v.text := by
    rw [List.filterMap_map]
    exact List.filterMap_eq_map_iff_forall_eq_some.mpr fun _ _ => rfl
  have hreceived : pieces.foldl receive .start
      = ⟨vs.map fun v => encodeUtf8 v.text, .start none, false⟩ := by
    rw [foldl_receive, hpieces]
    simp only [receive, start, Bool.false_eq_true, if_false, feed_frames hvs, hlines,
      List.nil_append]
  have hclosed : (pieces.foldl receive .start).close
      = ⟨vs.map fun v => encodeUtf8 v.text, .start none, true⟩ := by
    have hlast : (LineReader.start none).finish = none := rfl
    rw [hreceived]
    simp only [close, Bool.false_eq_true, if_false, hlast, Option.bind_none, Option.toList_none,
      List.append_nil]
  rw [hclosed, hreceived]
  have hread := readUpTo_values halone (.start none)
  refine ⟨rfl, ?_⟩
  rw [Connection.readAll, Connection.unread, List.length_map, hread]

/-- A line feed, a quote mark and a blank inside a text, minus zero, and the largest integer in an
object in an array; the bytes are cut inside the escape of the line feed. -/
theorem values_cut_inside_an_escape :
    let vs : List Json := [.string "\n\" ", .number (.float (.zero true)),
      .array [.object [("a", .null), ("b", .number (.int ⟨18446744073709551615, by decide⟩))]]]
    let bytes := vs.flatMap fun v => encodeUtf8 (frame v)
    let pieces := [bytes.take 2, bytes.drop 2]
    (∀ v ∈ vs, v.Nested 127) ∧
    (pieces.flatten = bytes ∧ Json.text (.string "\n\" ") = "\"\\n\\\" \"") ∧
    (Connection.readAll (.lines (pieces.foldl receive .start).close)).1
      = vs.map .value ++ [.closed] := by
  intro vs bytes pieces
  have hobject : (Json.object [("a", .null),
      ("b", .number (.int ⟨18446744073709551615, by decide⟩))]).Nested 126 :=
    .object (by decide)
      (List.forall_mem_cons.mpr ⟨.null 125, List.forall_mem_singleton.mpr (.number 125 _)⟩)
  have hvs : ∀ v ∈ vs, v.Nested 127 :=
    List.forall_mem_cons.mpr ⟨.string 127 _, List.forall_mem_cons.mpr ⟨.number 127 _,
      List.forall_mem_singleton.mpr (.array (List.forall_mem_singleton.mpr hobject))⟩⟩
  have hpieces : pieces.flatten = bytes :=
    (List.append_assoc _ _ _).symm.trans ((List.append_nil _).trans (List.take_append_drop 2 bytes))
  exact ⟨hvs, ⟨hpieces, by rfl⟩, ((written_lines_read_back vs hvs).2 pieces hpieces).2⟩

end LineConn

end LiveQuery
