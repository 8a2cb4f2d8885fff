import Mathlib

/-!
# Sockets whose bytes come in pieces

What a socket receives comes in pieces of any size, and then it is closed, or fails, or stays open.
An exact read takes a number of bytes, however they are cut.

* `Socket.readExactly_of_le`, `Socket.readExactly_of_lt` — an exact read depends on the bytes that
  are yet to be read and on how the socket ends, and not on how the bytes are cut
-/

namespace Infra

universe u

/-- What happens to a socket next. -/
inductive Arrival (ε : Type u) where
  | data (bytes : List UInt8)
  /-- The other end sends nothing more. -/
  | ended
  | closed
  | failed (error : ε)

/-- What is left of a socket that is open. -/
inductive Fate (ε : Type u) where
  | stays
  | closes
  | fails (error : ε)

/-- A socket with what it has received, whether the other end is done, and what is to come. -/
structure Socket (ε : Type u) where
  buffered : List UInt8
  ended : Bool
  coming : List (Arrival ε)

/-- How an exact read comes out. -/
inductive Reading (ε : Type u) where
  | waits
  | done (bytes : List UInt8) (socket : Socket ε)
  | closes
  | fails (error : ε)

variable {ε : Type u}

/-! ## Reads -/

/-- `read(size)`: fewer bytes are given only when the other end is done. -/
def readBuffer (size : Nat) (ended : Bool) (buffered : List UInt8) :
    Option (List UInt8 × List UInt8) :=
  if size ≤ buffered.length then some (buffered.take size, buffered.drop size)
  else if ended && !buffered.isEmpty then some (buffered, [])
  else none

/-- The reads that follow one arrival. A second one finds nothing. -/
def consume (length : Nat) (taken : List UInt8) (ended : Bool) (buffered : List UInt8) :
    List UInt8 × List UInt8 :=
  match readBuffer (length - taken.length) ended buffered with
  | some (chunk, buffered) => (taken ++ chunk, buffered)
  | none => (taken, buffered)

/-- The rest of an exact read, of which some bytes have been taken. -/
def readOn (length : Nat) (taken : List UInt8) (ended : Bool) (buffered : List UInt8)
    (coming : List (Arrival ε)) : Reading ε :=
  let read := consume length taken ended buffered
  if read.1.length = length then .done read.1 { buffered := read.2, ended, coming }
  else
    match coming with
    | [] => .waits
    | .data bytes :: coming => readOn length read.1 ended (read.2 ++ bytes) coming
    | .ended :: coming => readOn length read.1 true read.2 coming
    | .closed :: _ => .closes
    | .failed error :: _ => .fails error

namespace Socket

def readExactly (length : Nat) (socket : Socket ε) : Reading ε :=
  readOn length [] socket.ended socket.buffered socket.coming

/-! ## What a socket holds -/

/-- The bytes that come before the socket is closed. -/
def bytesOf : List (Arrival ε) → List UInt8
  | [] => []
  | .data bytes :: coming => bytes ++ bytesOf coming
  | .ended :: coming => bytesOf coming
  | .closed :: _ | .failed _ :: _ => []

def fateOf : List (Arrival ε) → Fate ε
  | [] => .stays
  | .data _ :: coming | .ended :: coming => fateOf coming
  | .closed :: _ => .closes
  | .failed error :: _ => .fails error

/-- What is yet to be read. -/
def unread (socket : Socket ε) : List UInt8 := socket.buffered ++ bytesOf socket.coming

def fate (socket : Socket ε) : Fate ε := fateOf socket.coming

/-- The sockets hold the same bytes and end alike. -/
def Alike (socket socket' : Socket ε) : Prop :=
  socket.unread = socket'.unread ∧ socket.fate = socket'.fate

end Socket

/-- What a read comes to that does not get its bytes. -/
def Fate.reading : Fate ε → Reading ε
  | .stays => .waits
  | .closes => .closes
  | .fails error => .fails error

/-- How an exact read comes out where `left` is yet to be read. -/
structure Reads (length : Nat) (left : List UInt8) (fate : Fate ε) (reading : Reading ε) : Prop where
  done : length ≤ left.length → ∃ socket : Socket ε, reading = .done (left.take length) socket ∧
    socket.unread = left.drop length ∧ socket.fate = fate
  short : left.length < length → reading = fate.reading

/-! ## Reads and what the socket holds -/

section

variable {length : Nat} {taken buffered left : List UInt8} {ended : Bool} {coming : List (Arrival ε)}

/-- The reads after an arrival lose nothing, and take all that is asked for where it is there. -/
theorem consume_spec (ended : Bool) (buffered : List UInt8) (h : taken.length < length) :
    (consume length taken ended buffered).1 ++ (consume length taken ended buffered).2 =
        taken ++ buffered ∧
      ((consume length taken ended buffered).1.length = length ↔
        length ≤ taken.length + buffered.length) ∧
      (consume length taken ended buffered).1.length ≤ length := by
  unfold consume readBuffer
  by_cases hall : length - taken.length ≤ buffered.length
  · rw [if_pos hall]
    refine ⟨by simp, ?_⟩
    simp only [List.length_append, List.length_take]
    omega
  · rw [if_neg hall]
    cases ended && !buffered.isEmpty with
    | true =>
      refine ⟨by simp, ?_⟩
      simp only [if_true, List.length_append]
      omega
    | false =>
      refine ⟨rfl, ?_⟩
      simp only [Bool.false_eq_true, if_false]
      omega

/-- Where all that is asked for has come, the read is done. -/
theorem readOn_of_le (h : taken.length < length) (hall : length ≤ taken.length + buffered.length)
    (hleft : taken ++ (buffered ++ Socket.bytesOf coming) = left) :
    Reads length left (Socket.fateOf coming) (readOn length taken ended buffered coming) := by
  obtain ⟨hsame, hiff, -⟩ := consume_spec ended buffered h
  have hlength := hiff.mpr hall
  have hsplit : (consume length taken ended buffered).1 ++
      ((consume length taken ended buffered).2 ++ Socket.bytesOf coming) = left := by
    rw [← List.append_assoc, hsame, List.append_assoc, hleft]
  refine ⟨fun _ => ⟨⟨(consume length taken ended buffered).2, ended, coming⟩, ?_, ?_, rfl⟩,
    fun hlt => ?_⟩
  · rw [readOn.eq_def, if_pos hlength, ← hsplit, List.take_left' hlength]
  · rw [← hsplit, List.drop_left' hlength]
    rfl
  · rw [← hsplit, List.length_append, hlength] at hlt
    omega

/-- Otherwise it goes on with the next arrival, and has lost nothing. -/
theorem readOn_of_lt (ended : Bool) (coming : List (Arrival ε)) (h : taken.length < length)
    (hmore : taken.length + buffered.length < length) :
    ∃ taken' buffered' : List UInt8, taken'.length < length ∧
      taken' ++ buffered' = taken ++ buffered ∧
      readOn length taken ended buffered coming =
        match coming with
        | [] => .waits
        | .data bytes :: coming => readOn length taken' ended (buffered' ++ bytes) coming
        | .ended :: coming => readOn length taken' true buffered' coming
        | .closed :: _ => .closes
        | .failed error :: _ => .fails error := by
  obtain ⟨hsame, hiff, hle⟩ := consume_spec ended buffered h
  have hne : (consume length taken ended buffered).1.length ≠ length := by
    intro heq
    have := hiff.mp heq
    omega
  refine ⟨_, _, by omega, hsame, ?_⟩
  rw [readOn.eq_def]
  exact if_neg hne

/-- The rest of an exact read takes its bytes from the front of what is left. -/
theorem readOn_reads (h : taken.length < length)
    (hleft : taken ++ (buffered ++ Socket.bytesOf coming) = left) :
    Reads length left (Socket.fateOf coming) (readOn length taken ended buffered coming) := by
  induction coming generalizing taken ended buffered with
  | nil =>
    by_cases hall : length ≤ taken.length + buffered.length
    · exact readOn_of_le h hall hleft
    · obtain ⟨taken', buffered', -, -, hnext⟩ :=
        readOn_of_lt ended [] h (Nat.lt_of_not_le hall)
      have hlength := congrArg List.length hleft
      simp only [Socket.bytesOf, List.append_nil, List.length_append] at hlength
      exact ⟨fun hle => by omega, fun _ => hnext⟩
  | cons arrival coming ih =>
    by_cases hall : length ≤ taken.length + buffered.length
    · exact readOn_of_le h hall hleft
    · obtain ⟨taken', buffered', h', hsame, hnext⟩ :=
        readOn_of_lt ended (arrival :: coming) h (Nat.lt_of_not_le hall)
      have hleft' : taken' ++ (buffered' ++ Socket.bytesOf (arrival :: coming)) = left := by
        rw [← List.append_assoc, hsame, List.append_assoc, hleft]
      rw [hnext]
      cases arrival with
      | data bytes =>
        refine ih h' ?_
        rw [List.append_assoc]
        exact hleft'
      | ended => exact ih h' hleft'
      | closed | failed error =>
        -- what has come is all that will
        have hlength := congrArg List.length hleft
        simp only [Socket.bytesOf, List.append_nil, List.length_append] at hlength
        exact ⟨fun hle => by omega, fun _ => rfl⟩

end

/-- **An exact read depends on the bytes that are yet to be read, however they are cut.** -/
theorem Socket.readExactly_reads {length : Nat} (hlength : 0 < length) (socket : Socket ε) :
    Reads length socket.unread socket.fate (socket.readExactly length) :=
  readOn_reads hlength (List.nil_append _)

end Infra
