import LiveQuery.Text.Blank

/-!
# Framing/Lines — cutting bytes into lines

Bytes arrive in pieces of any size; a line ends at a line feed, and a carriage return right before
the line feed belongs to the end.  A line that is longer than a limit is passed over as a whole,
**and its neighbours are untouched**.

There are two ways to read.  `LineReader` is given bytes as they arrive and holds the line that is
still growing; what it says depends on the bytes alone and not on how they were cut into pieces
(`feed_append`).  `Pieces.readLine` reads through a buffer: it takes the bytes of one line out of
the pieces and leaves the rest for the next.  Every line that it reads uses up some bytes
(`readLine_lt`), so reading line after line comes to an end.
-/

namespace LiveQuery

/-- What a line of the input is read as: its bytes, or too long to be read. -/
inductive Line where
  | bytes (bs : List UInt8)
  | tooLong
deriving DecidableEq, Repr

/-- **A line that is still growing**: its bytes so far, latest first, unless they are too many; and
how many there were. -/
structure LineReader where
  limit : Option Nat
  held : List UInt8
  length : Nat
deriving DecidableEq, Repr

namespace LineReader

/-- The line feed. -/
def lineFeed : UInt8 := 10

/-- The carriage return. -/
def carriageReturn : UInt8 := 13

/-- Nothing read yet. -/
def start (limit : Option Nat) : LineReader := ⟨limit, [], 0⟩

/-- Whether a line of so many bytes may be kept. -/
def allows (limit : Option Nat) (length : Nat) : Bool :=
  match limit with
  | some n => length ≤ n
  | none => true

/-- A line given backwards, without a carriage return at its end. -/
def withoutReturn : List UInt8 → List UInt8
  | b :: bs => if b = carriageReturn then bs else b :: bs
  | [] => []

/-- **The growing line, ended by a line feed.** -/
def ended (r : LineReader) : Line :=
  if allows r.limit r.length then .bytes (withoutReturn r.held).reverse else .tooLong

/-- One byte further: the line it ends, if it ends one, and what is growing now. -/
def step (r : LineReader) (b : UInt8) : Option Line × LineReader :=
  if b = lineFeed then (some r.ended, start r.limit)
  else
    (none, { r with
      held := if allows r.limit (r.length + 1) then b :: r.held else []
      length := r.length + 1 })

/-- Reads some bytes, after the lines already complete (latest first). -/
def feedAfter (lines : List Line) (r : LineReader) : List UInt8 → List Line × LineReader
  | [] => (lines.reverse, r)
  | b :: bs => feedAfter ((r.step b).1.toList ++ lines) (r.step b).2 bs

/-- **Reads some bytes**: the lines that they complete, and what is growing after them. -/
def feed (r : LineReader) (bs : List UInt8) : List Line × LineReader := feedAfter [] r bs

/-- **The end of the input**: a last line that no line feed ended, if there is one. -/
def finish (r : LineReader) : Option Line :=
  if r.length = 0 then none
  else some (if allows r.limit r.length then .bytes r.held.reverse else .tooLong)

theorem feedAfter_eq (lines : List Line) (r : LineReader) (bs : List UInt8) :
    feedAfter lines r bs = (lines.reverse ++ (r.feed bs).1, (r.feed bs).2) := by
  induction bs generalizing lines r with
  | nil => simp [feed, feedAfter]
  | cons b bs ih =>
    unfold feed
    rw [feedAfter, feedAfter, ih, ih]
    cases (r.step b).1 <;> simp

@[simp] theorem feed_nil (r : LineReader) : r.feed [] = ([], r) := rfl

/-- Reading one byte and then the rest. -/
theorem feed_cons (r : LineReader) (b : UInt8) (bs : List UInt8) :
    r.feed (b :: bs) =
      ((r.step b).1.toList ++ ((r.step b).2.feed bs).1, ((r.step b).2.feed bs).2) := by
  rw [feed, feedAfter, feedAfter_eq]
  cases (r.step b).1 <;> simp

/-- Reading in two pieces is reading at once. -/
theorem feed_append (r : LineReader) (as bs : List UInt8) :
    r.feed (as ++ bs) =
      ((r.feed as).1 ++ ((r.feed as).2.feed bs).1, ((r.feed as).2.feed bs).2) := by
  induction as generalizing r with
  | nil => simp
  | cons a as ih => simp [feed_cons, ih, List.append_assoc]

end LineReader

/-! ## Reading through a buffer

A line is read by **taking** bytes up to its line feed, one more than a line may have and not a byte
beyond that.  If the line feed is not among them the line is too long, and the rest of it is
**skipped** piece by piece.  What is left of a piece is where the next line begins. -/

/-- **An input behind a buffer**: the pieces that are still to be read, first the one in the
buffer. -/
abbrev Pieces := List (List UInt8)

namespace Pieces

open LineReader (lineFeed carriageReturn)

/-- **Takes bytes up to the first line feed and with it**, but at most so many: what was taken, and
what is left. -/
def takeLine : Nat → Pieces → List UInt8 × Pieces
  | _, [] => ([], [])
  | room, piece :: pieces =>
    match (piece.take room).idxOf? lineFeed with
    | some i => (piece.take (i + 1), piece.drop (i + 1) :: pieces)
    | none =>
      if room ≤ piece.length then (piece.take room, piece.drop room :: pieces)
      else
        let (taken, rest) := takeLine (room - piece.length) pieces
        (piece ++ taken, rest)

/-- **Skips bytes up to the first line feed and with it**, or all of them: what is left. -/
def skipLine : Pieces → Pieces
  | [] => []
  | piece :: pieces =>
    match piece.idxOf? lineFeed with
    | some i => piece.drop (i + 1) :: pieces
    | none => skipLine pieces

/-- Bytes without a carriage return at their end. -/
def dropReturn (bs : List UInt8) : List UInt8 :=
  if bs.getLast? = some carriageReturn then bs.dropLast else bs

/-- **Reads one line**: what it is read as, nothing at the end of the input, and what is left. -/
def readLine (limit : Nat) (pieces : Pieces) : Option Line × Pieces :=
  let (taken, rest) := takeLine (limit + 1) pieces
  if taken = [] then (none, rest)
  else if taken.getLast? = some lineFeed then (some (.bytes (dropReturn taken.dropLast)), rest)
  else if taken.length ≤ limit then (some (.bytes taken), rest)
  else (some .tooLong, skipLine rest)

/-! ### Every line uses up bytes -/

/-- **Nothing is lost in taking.** -/
theorem takeLine_append (room : Nat) (pieces : Pieces) :
    (takeLine room pieces).1 ++ (takeLine room pieces).2.flatten = pieces.flatten := by
  induction pieces generalizing room with
  | nil => rfl
  | cons piece pieces ih =>
    rw [takeLine]
    split
    · simp [← List.append_assoc]
    · split
      · simp [← List.append_assoc]
      · simp [ih]

theorem skipLine_length_le (pieces : Pieces) :
    (skipLine pieces).flatten.length ≤ pieces.flatten.length := by
  induction pieces with
  | nil => exact Nat.le_refl _
  | cons piece pieces ih =>
    rw [skipLine]
    split
    · simp
    · simp only [List.flatten_cons, List.length_append]
      omega

/-- **A line that is read uses up some bytes.** -/
theorem readLine_lt {limit : Nat} {pieces rest : Pieces} {line : Line}
    (h : readLine limit pieces = (some line, rest)) :
    rest.flatten.length < pieces.flatten.length := by
  have hall := congrArg List.length (takeLine_append (limit + 1) pieces)
  unfold readLine at h
  generalize takeLine (limit + 1) pieces = t at h hall
  obtain ⟨taken, left⟩ := t
  have hskip := skipLine_length_le left
  rw [List.length_append] at hall
  dsimp only at h hall
  by_cases hnone : taken = []
  · rw [if_pos hnone] at h
    cases h
  · have hsome := List.length_pos_iff.mpr hnone
    have hrest : rest = left ∨ rest = skipLine left := by
      rw [if_neg hnone] at h
      split at h
      · exact .inl (congrArg Prod.snd h).symm
      · split at h
        · exact .inl (congrArg Prod.snd h).symm
        · exact .inr (congrArg Prod.snd h).symm
    rcases hrest with rfl | rfl <;> omega

/-! ### Line after line -/

/-- Reads to the end of the input, after the lines already read (latest first). -/
def readLinesAfter (limit : Nat) (lines : List Line) (pieces : Pieces) : List Line :=
  match _h : readLine limit pieces with
  | (none, _) => lines.reverse
  | (some line, rest) => readLinesAfter limit (line :: lines) rest
termination_by pieces.flatten.length
decreasing_by exact readLine_lt _h

/-- **Reads line after line** to the end of the input. -/
def readLines (limit : Nat) (pieces : Pieces) : List Line := readLinesAfter limit [] pieces

theorem readLinesAfter_eq (limit : Nat) (lines : List Line) (pieces : Pieces) :
    readLinesAfter limit lines pieces = lines.reverse ++ readLines limit pieces := by
  induction hn : pieces.flatten.length using Nat.strongRecOn generalizing lines pieces with
  | _ n ih =>
    subst hn
    rw [readLines, readLinesAfter, readLinesAfter]
    split
    · simp
    · rename_i line rest h
      rw [ih _ (readLine_lt h) _ _ rfl, ih _ (readLine_lt h) [line] _ rfl]
      simp

/-- **Reading goes on until a read finds the end.** -/
theorem readLines_eq (limit : Nat) (pieces : Pieces) :
    readLines limit pieces = match readLine limit pieces with
      | (none, _) => []
      | (some line, rest) => line :: readLines limit rest := by
  rw [readLines, readLinesAfter]
  split
  · rename_i h
    rw [h]
    rfl
  · rename_i h
    rw [h, readLinesAfter_eq]
    rfl

end Pieces

/-! ## Bytes as text -/

/-- The text that bytes write in UTF-8, if they do. -/
def decodeUtf8? (bs : List UInt8) : Option String := String.fromUTF8? bs.toByteArray

/-- The bytes of a text in UTF-8. -/
def encodeUtf8 (s : String) : List UInt8 := s.toUTF8.toList

/-! ## The lines of a feed -/

/-- The longest line that a feed may send, in bytes. -/
def feedLineLimit : Nat := 32768

/-- What a feed is asked for: its name on a line. -/
def feedCommand (name : String) : String := name ++ "\n"

/-- The text of a line, if it is short enough and is one. -/
def Line.text? : Line → Option String
  | .bytes bs => decodeUtf8? bs
  | .tooLong => none

/-- All the lines of an input that comes in pieces. -/
def linesOf (limit : Option Nat) (pieces : List (List UInt8)) : List Line :=
  let (lines, r) := (LineReader.start limit).feed pieces.flatten
  lines ++ r.finish.toList

/-- **The lines a feed yields**: those that are not too long and are text. -/
def feedLines (pieces : Pieces) : List String :=
  (Pieces.readLines feedLineLimit pieces).filterMap Line.text?

end LiveQuery
