/-!
# What a link takes

The sending side of a link takes bytes in pieces and may get into trouble once it has taken a
certain number of them. Only the number of bytes matters here: what is taken is always the front of
what is offered.

* `Outgoing.offer` — one write: how many bytes are taken, if any
* `Outgoing.send` — writes until everything is taken or the link stops taking bytes
-/

namespace FlightRecorder

/-- What a link does when it is in trouble. -/
inductive Trouble
  /-- Writes fail. -/
  | failing
  /-- Writes take no bytes. -/
  | refusing
  /-- Writes wait for ever. -/
  | stalling
  /-- Bytes are taken, but cannot be flushed. -/
  | unflushable
  deriving DecidableEq, Repr

/-- The sending side of a link. -/
structure Outgoing where
  /-- Most bytes that one write takes. -/
  pieceSize : Option Nat
  /-- The trouble, and how many bytes are taken before it. -/
  trouble : Option (Trouble × Nat)
  /-- Bytes taken so far. -/
  taken : Nat
  deriving DecidableEq, Repr

/-- How one write ends. -/
inductive WriteOutcome
  | took (count : Nat)
  | failed
  | stalled
  deriving DecidableEq, Repr

/-- How sending a byte string ends. -/
inductive SendOutcome
  | complete
  | failed
  /-- A write took no bytes. -/
  | refused
  | stalled
  deriving DecidableEq, Repr

namespace Outgoing

/-- A link without limits. -/
def unlimited : Outgoing := { pieceSize := none, trouble := none, taken := 0 }

/-- What one write would take if there were no trouble. -/
def piece (o : Outgoing) (size : Nat) : Nat := min size (o.pieceSize.getD size)

/-- What one write takes if nothing is taken from `limit` bytes in total on. -/
def pieceBefore (o : Outgoing) (limit size : Nat) : Nat := min (o.piece size) (limit - o.taken)

/-- Offers so many bytes in one write. The write that would cross into trouble stops short of it. -/
def offer (o : Outgoing) (size : Nat) : WriteOutcome :=
  match o.trouble with
  | some (.failing, limit) =>
    if limit ≤ o.taken then .failed else .took (o.pieceBefore limit size)
  | some (.refusing, limit) => .took (o.pieceBefore limit size)
  | some (.stalling, limit) =>
    if limit ≤ o.taken then .stalled else .took (o.pieceBefore limit size)
  | some (.unflushable, _) => .took (o.piece size)
  | none => .took (o.piece size)

/-- Offers bytes until all are taken or the link takes no more. -/
def send (o : Outgoing) : Nat → SendOutcome × Outgoing
  | 0 => (.complete, o)
  | size + 1 =>
    match o.offer (size + 1) with
    | .failed => (.failed, o)
    | .stalled => (.stalled, o)
    | .took 0 => (.refused, o)
    | .took (count + 1) => send { o with taken := o.taken + (count + 1) } (size - count)
termination_by size => size

/-- Whether taken bytes can be flushed. -/
def canFlush (o : Outgoing) : Bool :=
  match o.trouble with
  | some (.unflushable, start) => o.taken < start
  | _ => true

end Outgoing

end FlightRecorder
