import FlightRecorder.Wire.Bytes

/-!
# What arrives on a link

The receiving side of a link is the list of what is still to come: bytes, stretches of silence, a
failure, the end. Time is a number of milliseconds that only waiting moves: what is there at once,
or at the deadline itself, is received without regard to the deadline.

* `receive` — the outcome of one wait, the time at its end and what is then still to come
* `unread` — a size of what is still to come; receiving bytes makes it smaller
-/

namespace FlightRecorder

/-- One thing that is still to come. -/
inductive Arrival
  /-- Bytes that are there as soon as they come to the front. -/
  | data (bytes : Bytes)
  /-- Nothing for a number of milliseconds, counted from the first wait for it. -/
  | silence (duration : Nat)
  /-- Nothing before a moment: a silence that somebody has begun to wait out. -/
  | silentUntil (moment : Nat)
  /-- One failing read. -/
  | failure
  /-- The end of the link. It stays at the front. -/
  | hangup
  deriving DecidableEq, Repr

/-- How a wait for bytes ends. -/
inductive Reception
  | received (bytes : Bytes)
  | failed
  | closed
  | timedOut
  deriving DecidableEq, Repr

/-- Most bytes that one read takes. -/
def readSize : Nat := 256

/-- Waits for bytes up to a deadline, from the moment `now` on. -/
def receive (deadline : Nat) (now : Nat) : List Arrival → Reception × Nat × List Arrival
  | [] => (.timedOut, deadline, [])
  | .data [] :: rest => receive deadline now rest
  | .data (b :: bytes) :: rest =>
    (.received ((b :: bytes).take readSize), now, .data ((b :: bytes).drop readSize) :: rest)
  | .silence duration :: rest =>
    if now + duration ≤ deadline then receive deadline (now + duration) rest
    -- The silence has begun, so its end no longer depends on when it is waited for.
    else (.timedOut, deadline, .silentUntil (now + duration) :: rest)
  | .silentUntil moment :: rest =>
    if moment ≤ max now deadline then receive deadline (max now moment) rest
    else (.timedOut, deadline, .silentUntil moment :: rest)
  | .failure :: rest => (.failed, now, rest)
  | .hangup :: rest => (.closed, now, .hangup :: rest)

/-- A size of one arrival: its bytes, and one for itself. -/
def Arrival.size : Arrival → Nat
  | data bytes => bytes.length + 1
  | _ => 1

/-- A size of what is still to come. -/
def unread (incoming : List Arrival) : Nat :=
  incoming.foldr (fun arrival size => arrival.size + size) 0

@[simp]
theorem unread_nil : unread [] = 0 := rfl

@[simp]
theorem unread_cons (arrival : Arrival) (incoming : List Arrival) :
    unread (arrival :: incoming) = arrival.size + unread incoming := rfl

/-- The bytes of a read are gone from what is still to come. -/
theorem unread_receive {deadline now later : Nat} {incoming rest : List Arrival} {bytes : Bytes}
    (h : receive deadline now incoming = (.received bytes, later, rest)) :
    bytes.length + unread rest ≤ unread incoming ∧ bytes ≠ [] := by
  fun_induction receive deadline now incoming with
  | case1 => cases h
  | case2 now rest ih =>
    have := ih h
    simp only [unread_cons]
    exact ⟨by omega, this.2⟩
  | case3 now b data rest =>
    simp only [Prod.mk.injEq, Reception.received.injEq] at h
    obtain ⟨rfl, rfl, rfl⟩ := h
    refine ⟨?_, by simp [readSize]⟩
    simp only [unread_cons, Arrival.size, List.length_take, List.length_drop]
    omega
  | case4 now duration rest _ ih =>
    have := ih h
    simp only [unread_cons]
    exact ⟨by omega, this.2⟩
  | case5 => cases h
  | case6 now moment rest _ ih =>
    have := ih h
    simp only [unread_cons]
    exact ⟨by omega, this.2⟩
  | case7 => cases h
  | case8 => cases h
  | case9 => cases h

end FlightRecorder
