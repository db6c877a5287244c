import LiveQuery.Proofs.Framing.Exchange
import LiveQuery.Proofs.History

/-!
# Proofs/Framing/Arrival — what is read does not depend on how it arrives

`sayings` is what some bytes say in lines: each line a value or a failure, the blank ones nothing,
and the end.  A conversation gets the bytes in pieces, and between two pieces somebody may look into
it, find nothing, and turn to something else.  **What all looks find together are the sayings of all
the bytes** (`LineConn.readings_append_readAll`, `LineConn.remaining_start`), wherever the pieces
are cut and whenever somebody looks.

The engine is `LineConn.readUpTo_lines`: reading on takes the lines that have arrived one by one,
and leaves the line that is still growing.

An `Intake` is a conversation that cuts nothing into lines before it is looked into: a look goes
over the bytes one by one and, if it finds nothing, is given up in the middle of a line.  All its
looks find what those into a `LineConn` find (`Intake.readings_eq`), since the line that was begun
stays where it is.
-/

namespace LiveQuery

open LineReader (lineFeed)

/-! ## What bytes say -/

/-- **The lines of some bytes**: those that a line feed ends, without a carriage return right before
it, and what is left after the last line feed, unless it is empty. -/
def textLines (bs : List UInt8) : List (List UInt8) :=
  let segments := bs.splitOn lineFeed
  segments.dropLast.map (fun seg => if seg.getLast? = some 13 then seg.dropLast else seg)
    ++ (segments.getLast?.filter (· ≠ [])).toList

/-- **What some bytes say in lines**, and the end. -/
def sayings (bs : List UInt8) : List Reading :=
  (textLines bs).filterMap LineConn.readLine? ++ [.closed]

variable {seg rest bs : List UInt8}

theorem textLines_cons (hseg : lineFeed ∉ seg) :
    textLines (seg ++ lineFeed :: rest) = Pieces.dropReturn seg :: textLines rest := by
  rw [textLines, List.splitOn_append_cons_self_of_not_mem hseg]
  have hne := List.splitOn_ne_nil lineFeed rest
  rw [List.dropLast_cons_of_ne_nil hne, List.getLast?_cons_of_ne_nil hne]
  rfl

theorem textLines_last (hbs : lineFeed ∉ bs) (hne : bs ≠ []) : textLines bs = [bs] := by
  have hkept : (some bs).filter (fun seg => decide (seg ≠ [])) = some bs :=
    if_pos (decide_eq_true hne)
  rw [textLines, List.splitOn_eq_singleton hbs]
  exact congrArg Option.toList hkept

/-- **A reader without a limit reads the lines.** -/
theorem linesOf_none (bs : List UInt8) : linesOf none [bs] = (textLines bs).map .bytes := by
  rw [linesOf, List.flatten_singleton]
  induction hn : bs.length using Nat.strongRecOn generalizing bs with
  | _ n ih =>
    subst hn
    rcases segment_cases bs with rfl | ⟨hfree, hne⟩ | ⟨seg, rest, hseg, rfl⟩
    · rfl
    · obtain ⟨held, hfeed, hheld⟩ := LineReader.feed_of_free hfree (.start none)
      obtain rfl : held = bs.reverse := (hheld rfl).trans (List.append_nil _)
      have hlength : 0 + bs.length ≠ 0 := by simpa using hne
      have hfinish : LineReader.finish ⟨none, bs.reverse, 0 + bs.length⟩ = some (.bytes bs) := by
        rw [LineReader.finish, if_neg hlength, List.reverse_reverse]
        rfl
      rw [hfeed, textLines_last hfree hne]
      exact congrArg Option.toList hfinish
    · obtain ⟨held, hfeed, hheld⟩ := LineReader.feed_of_free hseg (.start none)
      obtain rfl : held = seg.reverse := (hheld rfl).trans (List.append_nil _)
      have hstep : LineReader.step ⟨none, seg.reverse, 0 + seg.length⟩ lineFeed
          = (some (.bytes (Pieces.dropReturn seg)), .start none) := by
        rw [LineReader.step, if_pos rfl, LineReader.ended, LineReader.withoutReturn_reverse]
        rfl
      have hrest := ih rest.length (by simp; omega) rest rfl
      rw [LineReader.feed_append, hfeed, LineReader.feed_cons, textLines_cons hseg, List.map_cons,
        ← hrest]
      exact congrArg (fun x : Option Line × LineReader =>
        x.1.toList ++ (x.2.feed rest).1 ++ (x.2.feed rest).2.finish.toList) hstep

/-! ## Reading on -/

/-- What a look finds, unless nothing has come yet. -/
def Reading.found? : Reading → Option Reading
  | .pending => none
  | r => some r

namespace LineConn

/-- A line says a value or a failure. -/
theorem readLine?_cases {r : Reading} (h : readLine? bs = some r) :
    (∃ v, r = .value v) ∨ ∃ e, r = .failed e := by
  rw [readLine?] at h
  split at h
  case h_1 => exact Or.inr ⟨_, (Option.some.inj h).symm⟩
  case h_2 s _ =>
    split at h
    case isTrue => cases h
    case isFalse =>
      rw [← Option.some.inj h, Reading.ofText]
      split
      · exact Or.inl ⟨_, rfl⟩
      · exact Or.inr ⟨_, rfl⟩

/-- **A look takes the first line that says something**, and the lines before it. -/
theorem read_cases (c : LineConn) :
    (c.arrived.filterMap readLine? = [] ∧
        c.read = (if c.ended then .closed else .pending, { c with arrived := [] })) ∨
      ∃ bs r rest, readLine? bs = some r ∧ c.read = (r, { c with arrived := rest }) ∧
        rest.length < c.arrived.length ∧
        ∀ more, (c.arrived ++ more).filterMap readLine?
          = r :: (rest ++ more).filterMap readLine? := by
  obtain ⟨arrived, reader, ended⟩ := c
  induction arrived with
  | nil => exact Or.inl ⟨rfl, rfl⟩
  | cons bs arrived ih =>
    cases hbs : readLine? bs with
    | some r =>
      refine Or.inr ⟨bs, r, arrived, hbs, ?_, Nat.lt_succ_self _, fun more => ?_⟩
      · simp only [read, firstReading?, hbs]
      · rw [List.cons_append, List.filterMap_cons_some hbs]
    | none =>
      have hread : read ⟨bs :: arrived, reader, ended⟩ = read ⟨arrived, reader, ended⟩ := by
        simp only [read, firstReading?, hbs]
      rw [hread]
      rcases ih with ⟨hnothing, hread⟩ | ⟨bs', r, rest, hr, hread, hlt, hmore⟩
      · exact Or.inl ⟨by rw [List.filterMap_cons_none hbs, hnothing], hread⟩
      · refine Or.inr ⟨bs', r, rest, hr, hread, Nat.lt_succ_of_lt hlt, fun more => ?_⟩
        rw [List.cons_append, List.filterMap_cons_none hbs, hmore]

/-- **Reading on takes all that has arrived**, line by line. -/
theorem readUpTo_lines (n : Nat) (c : LineConn) (h : c.arrived.length < n) :
    Connection.readUpTo n (.lines c)
      = (c.arrived.filterMap readLine? ++ if c.ended then [.closed] else [],
        .lines { c with arrived := [] }) := by
  induction n generalizing c with
  | zero => exact absurd h (Nat.not_lt_zero _)
  | succ n ih =>
    rcases c.read_cases with ⟨hnothing, hread⟩ | ⟨bs, r, rest, hr, hread, hlt, hmore⟩
    · rw [Connection.readUpTo, Connection.read, hread, hnothing]
      cases c.ended <;> rfl
    · have hrest := ih { c with arrived := rest } (by simp only; omega)
      have hlines := hmore []
      rw [List.append_nil, List.append_nil] at hlines
      rw [Connection.readUpTo, Connection.read, hread, hlines]
      rcases readLine?_cases hr with ⟨v, rfl⟩ | ⟨e, rfl⟩
      · simp only [hrest, List.cons_append]
      · simp only [hrest, List.cons_append]

theorem readAll_lines (c : LineConn) :
    (Connection.lines c).readAll
      = (c.arrived.filterMap readLine? ++ if c.ended then [.closed] else [],
        .lines { c with arrived := [] }) :=
  readUpTo_lines _ c (Nat.lt_succ_self _)

end LineConn

/-! ## Pieces and looks -/

/-- **What happens to a conversation**: a piece of its bytes arrives, somebody looks whether there
is something to read, or the input ends. -/
inductive Turn where
  | piece (bs : List UInt8)
  | look
  | close
deriving DecidableEq

/-- The bytes that a turn brings. -/
def Turn.bytes : Turn → List UInt8
  | .piece bs => bs
  | _ => []

/-- **A way to converse**: bytes are received, the conversation is looked into, and it ends. -/
structure Talk (σ : Type) where
  receive : σ → List UInt8 → σ
  look : σ → Reading × σ
  close : σ → σ

namespace Talk

variable {σ : Type} (k : Talk σ)

/-- The conversation after a turn. -/
def after (s : σ) : Turn → σ
  | .piece bs => k.receive s bs
  | .look => (k.look s).2
  | .close => k.close s

/-- What is found in a turn; a look that finds nothing is given up. -/
def found (s : σ) : Turn → List Reading
  | .look => (k.look s).1.found?.toList
  | _ => []

/-- **What is found in some turns**, look by look. -/
def readings (s : σ) (turns : List Turn) : List Reading := history k.after k.found s turns

end Talk

namespace LineConn

/-- Conversing in lines. -/
def talk : Talk LineConn := ⟨receive, read, close⟩

/-- **What is still to be said** when some more bytes arrive and then the input ends. -/
def remaining (c : LineConn) (bs : List UInt8) : List Reading :=
  (Connection.lines (c.receive bs).close).readAll.1

/-- What has arrived is said first. -/
theorem remaining_eq (arrived : List (List UInt8)) (reader : LineReader) (bs : List UInt8) :
    remaining ⟨arrived, reader, false⟩ bs
      = (arrived ++ ((reader.feed bs).1 ++ (reader.feed bs).2.finish.toList).filterMap
          lineBytes?).filterMap readLine? ++ [.closed] := by
  have hlast : ((reader.feed bs).2.finish.bind lineBytes?).toList
      = (reader.feed bs).2.finish.toList.filterMap lineBytes? := by
    cases (reader.feed bs).2.finish with
    | none => rfl
    | some line => cases line <;> rfl
  have hclosed : ((⟨arrived, reader, false⟩ : LineConn).receive bs).close
      = ⟨arrived ++ ((reader.feed bs).1 ++ (reader.feed bs).2.finish.toList).filterMap lineBytes?,
        .start none, true⟩ := by
    rw [List.filterMap_append, ← hlast, ← List.append_assoc]
    rfl
  rw [remaining, hclosed, readAll_lines]
  rfl

/-- **From the start, the sayings of all the bytes are still to be said.** -/
theorem remaining_start (bs : List UInt8) : remaining .start bs = sayings bs := by
  have hlines := linesOf_none bs
  rw [linesOf, List.flatten_singleton] at hlines
  have hbytes : ((textLines bs).map Line.bytes).filterMap lineBytes? = textLines bs := by
    rw [List.filterMap_map]
    exact List.filterMap_some
  rw [start, remaining_eq, List.nil_append, sayings]
  exact congrArg (fun lines => lines.filterMap readLine? ++ [.closed])
    ((congrArg (List.filterMap lineBytes?) hlines).trans hbytes)

/-- **A look takes what it finds off what is still to be said**, and the input has not ended. -/
theorem found_append_remaining {c : LineConn} (h : c.ended = false) (bs : List UInt8) :
    talk.found c .look ++ remaining (talk.after c .look) bs = remaining c bs ∧
      (talk.after c .look).ended = false := by
  obtain ⟨arrived, reader, ended⟩ := c
  obtain rfl : ended = false := h
  have hfound : talk.found ⟨arrived, reader, false⟩ .look
      = (read ⟨arrived, reader, false⟩).1.found?.toList := rfl
  have hafter : talk.after ⟨arrived, reader, false⟩ .look
      = (read ⟨arrived, reader, false⟩).2 := rfl
  rw [hfound, hafter, remaining_eq]
  rcases read_cases ⟨arrived, reader, false⟩ with
    ⟨hnothing, hread⟩ | ⟨line, r, rest, hr, hread, -, hmore⟩
  · rw [hread, List.filterMap_append, hnothing]
    exact ⟨remaining_eq [] reader bs, rfl⟩
  · have hsome : r.found? = some r := by
      rcases readLine?_cases hr with ⟨v, rfl⟩ | ⟨e, rfl⟩ <;> rfl
    rw [hread, hmore, hsome]
    exact ⟨congrArg (r :: ·) (remaining_eq rest reader bs), rfl⟩

/-- **Reading on takes all that has arrived off what is still to be said.** -/
theorem readAll_append_remaining {c : LineConn} (h : c.ended = false) (bs : List UInt8) :
    (Connection.lines c).readAll.1 ++ remaining { c with arrived := [] } bs = remaining c bs := by
  obtain ⟨arrived, reader, ended⟩ := c
  obtain rfl : ended = false := h
  rw [readAll_lines, remaining_eq, remaining_eq, List.filterMap_append, List.append_assoc]
  simp

theorem ended_receive (c : LineConn) (bs : List UInt8) : (c.receive bs).ended = c.ended := by
  rw [receive]
  split <;> rfl

/-- **Looking in between changes nothing of what is said.** -/
theorem readings_append_readAll {c : LineConn} (h : c.ended = false) {turns : List Turn}
    (hturns : .close ∉ turns) :
    talk.readings c turns ++ (Connection.lines (turns.foldl talk.after c).close).readAll.1
      = remaining c (turns.flatMap Turn.bytes) := by
  induction turns generalizing c with
  | nil =>
    rw [List.flatMap_nil, remaining, receive_nil]
    rfl
  | cons turn turns ih =>
    obtain ⟨hturn, hrest⟩ := List.ne_and_not_mem_of_not_mem_cons hturns
    rw [Talk.readings, history, List.foldl_cons, List.append_assoc, List.flatMap_cons]
    cases turn with
    | piece bs =>
      rw [remaining, Turn.bytes, ← receive_receive]
      exact ih ((ended_receive c bs).trans h) hrest
    | look =>
      obtain ⟨hfound, hopen⟩ := found_append_remaining h (turns.flatMap Turn.bytes)
      exact (congrArg (talk.found c .look ++ ·) (ih hopen hrest)).trans hfound
    | close => exact absurd rfl hturn

end LineConn

/-! ## Looking byte by byte -/

/-- **A conversation that nobody has cut into lines**: the bytes that came and were not looked at,
the line that was begun, and whether the input has ended. -/
structure Intake where
  unseen : List UInt8
  begun : LineReader
  ended : Bool

namespace Intake

open LineConn (lineBytes? readLine? firstReading?)

/-- Nothing has come yet. -/
def start : Intake := ⟨[], .start none, false⟩

/-- Bytes come, and nobody looks at them. -/
def receive (i : Intake) (bs : List UInt8) : Intake :=
  if i.ended then i else { i with unseen := i.unseen ++ bs }

/-- The input ends. -/
def close (i : Intake) : Intake := { i with ended := true }

/-- **Goes over bytes up to the first line that says something**: what it says, the line that is
begun then, and the bytes that were not looked at. -/
def scan (r : LineReader) : List UInt8 → Option Reading × LineReader × List UInt8
  | [] => (none, r, [])
  | b :: bs =>
    match ((r.step b).1.bind lineBytes?).bind readLine? with
    | some x => (some x, (r.step b).2, bs)
    | none => scan (r.step b).2 bs

/-- **A look**: if no line that has come says anything it is given up, and what it went over is kept
as the line that was begun. -/
def look (i : Intake) : Reading × Intake :=
  match scan i.begun i.unseen with
  | (some x, r, bs) => (x, ⟨bs, r, i.ended⟩)
  | (none, r, _) =>
    if i.ended then
      (((r.finish.bind lineBytes?).bind readLine?).getD .closed, ⟨[], .start none, true⟩)
    else (.pending, ⟨[], r, false⟩)

/-- Conversing without cutting anything into lines before it is looked at. -/
def talk : Talk Intake := ⟨receive, look, close⟩

/-- **The same conversation with its lines cut out.** -/
def cutUp (i : Intake) : LineConn :=
  let c := LineConn.receive ⟨[], i.begun, false⟩ i.unseen
  if i.ended then c.close else c

/-- The lines that bytes complete. -/
def completed (r : LineReader) (bs : List UInt8) : List (List UInt8) :=
  (r.feed bs).1.filterMap lineBytes?

theorem cutUp_open (bs : List UInt8) (r : LineReader) :
    cutUp ⟨bs, r, false⟩ = ⟨completed r bs, (r.feed bs).2, false⟩ := rfl

theorem cutUp_ended (bs : List UInt8) (r : LineReader) :
    cutUp ⟨bs, r, true⟩
      = ⟨completed r bs ++ ((r.feed bs).2.finish.bind lineBytes?).toList, .start none, true⟩ := rfl

theorem cutUp_receive (i : Intake) (bs : List UInt8) :
    (i.receive bs).cutUp = i.cutUp.receive bs := by
  obtain ⟨unseen, r, ended⟩ := i
  cases ended with
  | true => rfl
  | false => exact (LineConn.receive_receive ⟨[], r, false⟩ unseen bs).symm

theorem cutUp_close (i : Intake) : i.close.cutUp = i.cutUp.close := by
  obtain ⟨unseen, r, ended⟩ := i
  cases ended <;> rfl

/-- **Going over the bytes finds the first line that says something**, and leaves the lines after
it. -/
theorem scan_cases (r : LineReader) (bs : List UInt8) :
    (scan r bs = (none, (r.feed bs).2, []) ∧
        ∀ more, firstReading? (completed r bs ++ more) = firstReading? more) ∨
      ∃ x r' rest, scan r bs = (some x, r', rest) ∧ (r'.feed rest).2 = (r.feed bs).2 ∧
        ∀ more, firstReading? (completed r bs ++ more) = some (x, completed r' rest ++ more) := by
  induction bs generalizing r with
  | nil => exact Or.inl ⟨rfl, fun _ => rfl⟩
  | cons b bs ih =>
    have hfeed : (r.feed (b :: bs)).2 = ((r.step b).2.feed bs).2 := by rw [LineReader.feed_cons]
    have hcompleted : completed r (b :: bs)
        = ((r.step b).1.bind lineBytes?).toList ++ completed (r.step b).2 bs := by
      rw [completed, LineReader.feed_cons, List.filterMap_append]
      rcases (r.step b).1 with _ | _ | _ <;> rfl
    rw [hfeed, hcompleted, scan]
    rcases (r.step b).1.bind lineBytes? with _ | line
    · exact ih (r.step b).2
    · cases hline : readLine? line with
      | some x =>
        refine Or.inr ⟨x, (r.step b).2, bs, ?_, rfl, fun more => ?_⟩
        · simp only [Option.bind_some, hline]
        · simp only [Option.toList_some, List.cons_append, List.nil_append, firstReading?, hline]
      | none =>
        have hskip : ∀ more, firstReading? ((some line).toList ++ completed (r.step b).2 bs ++ more)
            = firstReading? (completed (r.step b).2 bs ++ more) := fun more => by
          simp only [Option.toList_some, List.cons_append, List.nil_append, firstReading?, hline]
        simp only [Option.bind_some, hline, hskip]
        exact ih (r.step b).2

theorem firstReading?_toList (last : Option (List UInt8)) :
    firstReading? last.toList = (last.bind readLine?).map fun x => (x, []) := by
  cases last with
  | none => rfl
  | some line =>
    rw [Option.toList_some, firstReading?, Option.bind_some]
    cases readLine? line <;> rfl

/-- **A look finds what a reader of lines finds**, and leaves the same. -/
theorem look_eq (i : Intake) : i.look.1 = i.cutUp.read.1 ∧ i.look.2.cutUp = i.cutUp.read.2 := by
  obtain ⟨bs, r, ended⟩ := i
  rcases scan_cases r bs with ⟨hscan, hfirst⟩ | ⟨x, r', rest, hscan, hfeed, hfirst⟩
  · cases ended with
    | false =>
      have hnone := hfirst []
      rw [List.append_nil] at hnone
      rw [cutUp_open]
      simp only [look, hscan, LineConn.read, hnone, firstReading?]
      exact ⟨rfl, rfl⟩
    | true =>
      have hlast := hfirst (((r.feed bs).2.finish.bind lineBytes?).toList)
      rw [firstReading?_toList] at hlast
      rw [cutUp_ended]
      simp only [look, hscan, LineConn.read, hlast, if_true]
      cases ((r.feed bs).2.finish.bind lineBytes?).bind readLine? <;> exact ⟨rfl, rfl⟩
  · cases ended with
    | false =>
      have hsome := hfirst []
      rw [List.append_nil, List.append_nil] at hsome
      rw [cutUp_open]
      simp only [look, hscan, LineConn.read, hsome, cutUp_open, hfeed, and_self]
    | true =>
      have hsome := hfirst (((r.feed bs).2.finish.bind lineBytes?).toList)
      rw [cutUp_ended]
      simp only [look, hscan, LineConn.read, hsome, cutUp_ended, hfeed, and_self]

/-- **Whatever the turns, the looks find the same** as they do in a conversation whose lines are cut
out as they come. -/
theorem readings_eq (i : Intake) (turns : List Turn) :
    talk.readings i turns = LineConn.talk.readings i.cutUp turns := by
  refine history_congr (R := fun i c => i.cutUp = c) ?_ ?_ rfl turns
  · rintro i _ turn rfl
    cases turn with
    | piece bs => exact i.cutUp_receive bs
    | look => exact i.look_eq.2
    | close => exact i.cutUp_close
  · rintro i _ turn rfl
    cases turn with
    | look => exact congrArg (fun r : Reading => r.found?.toList) i.look_eq.1
    | _ => rfl

end Intake

end LiveQuery
