import LiveQuery.Proofs.Framing.Arrival

/-!
# Proofs/Framing/Utterance — what a client says, in lines or in messages

Somebody who waits for JSON values hears one of three things in a line or a message: a value,
something that is none, or that the client leaves.  `Connection.uttered` is what a client has said
and nobody has read, told line by line and message by message, and **reading on finds just this** up
to the first thing that is no value (`Connection.voices_readAll`).

Two conversations that say the same leave nothing to tell them apart but what is still growing
(`Connection.silent`), as long as nothing but values was said.
-/

namespace LiveQuery

open Text

/-- **What is heard of a client** in one line or message. -/
inductive Utterance where
  | json (v : Json)
  /-- What cannot be read. -/
  | unreadable (e : TransportError)
  /-- The client leaves. -/
  | farewell
deriving Repr

namespace Utterance

/-- A text is a JSON value, or cannot be read. -/
def ofText (s : String) : Utterance :=
  match Json.read? s with
  | some v => .json v
  | none => .unreadable .notJson

/-- **What a line says**: nothing if it is blank, and else what it says without the blanks at its
ends, if its bytes are a text. -/
def ofLine? (bs : List UInt8) : Option Utterance :=
  match decodeUtf8? bs with
  | none => some (.unreadable .notUtf8)
  | some s => if isBlankText s.toList then none else some (ofText (.ofList (trim s.toList)))

/-- **What a message says**; bytes that are no text are no JSON value. -/
def ofMessage? : Message → Option Utterance
  | .text s => some (ofText s)
  | .binary bs => some (((decodeUtf8? bs).map ofText).getD (.unreadable .notJson))
  | .control => none
  | .close => some .farewell
  | .cut | .garbled => some (.unreadable .brokenStream)

/-- An utterance as it is read. -/
def reading : Utterance → Reading
  | json v => .value v
  | unreadable e => .failed e
  | farewell => .closed

variable {u : Utterance}

theorem reading_ofText (s : String) : (ofText s).reading = .ofText s.toList := by
  rw [ofText, Reading.ofText, Json.read?]
  cases Json.readWithin? Json.maxDepth s.toList <;> rfl

theorem readLine?_eq (bs : List UInt8) :
    LineConn.readLine? bs = (ofLine? bs).map reading := by
  rw [LineConn.readLine?, ofLine?]
  cases decodeUtf8? bs with
  | none => rfl
  | some s =>
    dsimp only
    split
    · rfl
    · rw [Option.map_some, reading_ofText, String.toList_ofList]

theorem reading?_eq (m : Message) : m.reading? = (ofMessage? m).map reading := by
  cases m with
  | text s => exact congrArg some (reading_ofText s).symm
  | binary bs =>
    rw [Message.reading?, ofMessage?]
    cases decodeUtf8? bs with
    | none => rfl
    | some s => exact congrArg some (reading_ofText s).symm
  | _ => rfl

/-- A message that says a value ends nothing. -/
theorem ends_of_json {m : Message} {v : Json} (h : ofMessage? m = some (.json v)) :
    m.endsReading = false ∧ m.endsWriting = false := by
  cases m with
  | text s => exact ⟨rfl, rfl⟩
  | binary bs => exact ⟨rfl, rfl⟩
  | _ => cases h

end Utterance

open Utterance (ofLine? ofMessage? reading)

/-- What is read is nothing yet, or something that was uttered. -/
theorem Reading.pending_or_uttered (r : Reading) :
    r = .pending ∨ ∃ u : Utterance, r = u.reading := by
  cases r with
  | value v => exact Or.inr ⟨.json v, rfl⟩
  | failed e => exact Or.inr ⟨.unreadable e, rfl⟩
  | closed => exact Or.inr ⟨.farewell, rfl⟩
  | pending => exact Or.inl rfl

/-- **Readings that say what was uttered**, up to the first that is no value. -/
inductive Voices : List Utterance → List Reading → Prop where
  | nil : Voices [] []
  | json (v : Json) {us : List Utterance} {rs : List Reading} (h : Voices us rs) :
    Voices (.json v :: us) (.value v :: rs)
  | last {u : Utterance} (hu : ∀ v, u ≠ .json v) (us : List Utterance) (rs : List Reading) :
    Voices (u :: us) (u.reading :: rs)

/-- What is read as it was uttered says it. -/
theorem voices_map (us : List Utterance) : Voices us (us.map reading) := by
  induction us with
  | nil => exact .nil
  | cons u us ih =>
    cases u with
    | json v => exact .json v ih
    | _ => exact .last (fun _ => Utterance.noConfusion) us _

/-- What is no value says that not all are values, whatever follows it. -/
theorem voices_last {u : Utterance} (hu : ∀ v, u ≠ .json v) (us : List Utterance)
    (rs : List Reading) {P : Prop} :
    Voices (u :: us) (u.reading :: rs) ∧ ((∀ w ∈ u :: us, ∃ v, w = .json v) → P) := by
  refine ⟨.last hu us rs, fun hjson => ?_⟩
  obtain ⟨v, hv⟩ := hjson u List.mem_cons_self
  exact absurd hv (hu v)

/-- What is uttered first is read first, and what follows a value says what follows it. -/
theorem Voices.of_cons {u : Utterance} {us : List Utterance} {rs : List Reading}
    (h : Voices (u :: us) rs) :
    ∃ rs', rs = u.reading :: rs' ∧ ∀ v, u = .json v → Voices us rs' := by
  cases h with
  | json v h => exact ⟨_, rfl, fun _ _ => h⟩
  | last hu us rs => exact ⟨rs, rfl, fun v hv => absurd hv (hu v)⟩

namespace Connection

/-- **What a client has said that was not read yet.** -/
def uttered : Connection → List Utterance
  | .lines c => c.arrived.filterMap ofLine? ++ if c.ended then [.farewell] else []
  | .messages c => if c.ended then [.farewell] else c.arrived.filterMap ofMessage?

/-- The conversation when all that has arrived was heard. -/
def silent : Connection → Connection
  | .lines c => .lines { c with arrived := [] }
  | .messages c => .messages { c with arrived := [] }

end Connection

namespace MessageConn

/-- The first message that says something says what is uttered first. -/
theorem firstReading?_cases (arrived : List Message) :
    (firstReading? arrived = none ∧ arrived.filterMap ofMessage? = []) ∨
      ∃ m u rest, firstReading? arrived = some (m, u.reading, rest) ∧ ofMessage? m = some u ∧
        arrived.filterMap ofMessage? = u :: rest.filterMap ofMessage? ∧
        rest.length < arrived.length := by
  induction arrived with
  | nil => exact Or.inl ⟨rfl, rfl⟩
  | cons m arrived ih =>
    rw [firstReading?, Utterance.reading?_eq]
    cases hm : ofMessage? m with
    | some u =>
      have huttered := List.filterMap_cons_some (l := arrived) hm
      exact Or.inr ⟨m, u, arrived, rfl, hm, huttered, Nat.lt_succ_self _⟩
    | none =>
      rw [List.filterMap_cons_none hm]
      rcases ih with hnone | ⟨m', u, rest, hfirst, hm', huttered, hlt⟩
      · exact Or.inl hnone
      · exact Or.inr ⟨m', u, rest, hfirst, hm', huttered, Nat.lt_succ_of_lt hlt⟩

/-- **Reading on finds what was uttered**, message by message. -/
theorem voices_readUpTo (n : Nat) (c : MessageConn) (h : c.arrived.length < n) :
    Voices (Connection.messages c).uttered (Connection.readUpTo n (.messages c)).1 ∧
      ((∀ u ∈ (Connection.messages c).uttered, ∃ v, u = .json v) →
        (Connection.readUpTo n (.messages c)).2 = (Connection.messages c).silent) := by
  induction n generalizing c with
  | zero => exact absurd h (Nat.not_lt_zero _)
  | succ n ih =>
    obtain ⟨arrived, ended, gone⟩ := c
    rw [Connection.readUpTo, Connection.read, read, Connection.uttered, Connection.silent]
    cases ended with
    | true => exact voices_last (fun _ => Utterance.noConfusion) [] []
    | false =>
      simp only [Bool.false_eq_true, if_false]
      rcases firstReading?_cases arrived with
        ⟨hnone, huttered⟩ | ⟨m, u, rest, hfirst, hm, huttered, hlt⟩
      · rw [hnone, huttered]
        exact ⟨.nil, fun _ => rfl⟩
      · rw [hfirst, huttered]
        cases u with
        | json v =>
          obtain ⟨hreading, hwriting⟩ := Utterance.ends_of_json hm
          obtain ⟨hvoices, hsilent⟩ := ih ⟨rest, false, gone⟩ (by simp only at h ⊢; omega)
          simp only [Utterance.reading, hreading, hwriting, Bool.or_false, if_false,
            Bool.false_eq_true]
          exact ⟨.json v hvoices, fun hjson => hsilent fun u hu => hjson u (.tail _ hu)⟩
        | unreadable e => exact voices_last (fun _ => Utterance.noConfusion) _ _
        | farewell => exact voices_last (fun _ => Utterance.noConfusion) _ _

end MessageConn

namespace Connection

/-- **Reading all finds what was uttered**, and if these are values nothing of it is left. -/
theorem voices_readAll (conn : Connection) :
    Voices conn.uttered conn.readAll.1 ∧
      ((∀ u ∈ conn.uttered, ∃ v, u = .json v) → conn.readAll.2 = conn.silent) := by
  cases conn with
  | lines c =>
    have hlines : c.arrived.filterMap LineConn.readLine?
        = (c.arrived.filterMap ofLine?).map reading := by
      rw [List.map_filterMap]
      exact List.filterMap_congr fun bs _ => Utterance.readLine?_eq bs
    have hended : (if c.ended then [Reading.closed] else [])
        = (if c.ended then [Utterance.farewell] else []).map reading := by
      cases c.ended <;> rfl
    rw [LineConn.readAll_lines, hlines, hended, ← List.map_append]
    exact ⟨voices_map _, fun _ => rfl⟩
  | messages c => exact MessageConn.voices_readUpTo _ c (Nat.lt_succ_self _)

end Connection

end LiveQuery
