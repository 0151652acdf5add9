import FlightRecorder.Device.Control
import FlightRecorder.Storage.Writer

/-!
# Downloading a record

The content of the selected record comes in pieces, one for each request, until a piece says that it
is the last. Every piece is appended to the file before the next one is asked for.

* `appendChunk` — asks for one piece and appends it
* `transferFrom` — does so up to the last piece; it ends because every piece is a reply that uses up
  some of what the session can still receive
* `downloadSelected` — creates the file and fills it; behind a failure the file holds a front of the
  pieces that have come
* `download` — selects the record before and removes the file after a failure
-/

namespace FlightRecorder

/-- Range of the positions reported while downloading. -/
def downloadRange : Nat := 100

/-- Asks for the next piece of the selected record. -/
def nextChunk : Action Chunk := do
  poll
  let reply ← exchange .getIgcData [] (·.dataTimeout)
  poll
  let chunk ← Action.ofResult reply.chunk
  reportPosition chunk.progress
  pure chunk

theorem spends_nextChunk : Action.Spends nextChunk :=
  keeps_poll.bind_spends fun _ =>
    (spends_exchange _ _ _).bind fun _ =>
      keeps_poll.bind fun _ =>
        .bind (fun _ => rfl) fun _ =>
          (keeps_reportPosition _).bind fun _ => Action.keeps_pure _

/-- The session with the file of a writer as far as it is written. -/
def Session.saving (s : Session) (w : FileWriter) : Session :=
  { s with storage := w.save s.storage }

/-- Asks for the next piece and appends it to the file; says whether it was the last one. -/
def appendChunk (w : FileWriter) : Action (FileWriter × Bool) := do
  let chunk ← nextChunk
  let w' := w.append chunk.data
  modify (·.saving w')
  pure (w', chunk.isLast)

/-- A piece fails to come, or it is appended to the file. -/
theorem perform_appendChunk (w : FileWriter) (s : Session) :
    (appendChunk w).perform s =
      match nextChunk.perform s with
      | (.error failure, s') => (.error failure, s')
      | (.ok chunk, s') =>
        (.ok (w.append chunk.data, chunk.isLast), s'.saving (w.append chunk.data)) := by
  rw [appendChunk, Action.perform_bind]
  rcases nextChunk.perform s with ⟨_ | _, s'⟩ <;> rfl

theorem spends_appendChunk (w : FileWriter) : Action.Spends (appendChunk w) :=
  spends_nextChunk.bind fun chunk =>
    .bind (fun _ => rfl) fun _ => Action.keeps_pure (w.append chunk.data, chunk.isLast)

/-- Appends the pieces of the selected record that have not come yet. -/
def transferFrom (w : FileWriter) (s : Session) : Except Failure FileWriter × Session :=
  match _h : (appendChunk w).perform s with
  | (.error failure, s') => (.error failure, s')
  | (.ok (w', isLast), s') => if isLast then (.ok w', s') else transferFrom w' s'
termination_by s.pending
decreasing_by
  have := spends_appendChunk w s (w', isLast)
  rw [_h] at this
  exact this rfl

/-- Creates the file that a path names. -/
def createFile (path : String) : Action Place :=
  Action.ofPerform fun s =>
    match s.storage.create path with
    | .error fault => (.error (.system (.storage fault)), s)
    | .ok (place, storage) => (.ok place, { s with storage := storage }.note (.created place))

/-- Downloads the selected record into the file that a path names. -/
def downloadSelected (path : String) : Action Unit := do
  poll
  let place ← createFile path
  reportRange downloadRange
  let w ← Action.ofPerform (transferFrom (.start place))
  modify (·.saving w.flush)

/-- Runs an action and removes the file that a path names if it fails. -/
def Action.removingOnFailure {α : Type} (path : String) (action : Action α) : Action α :=
  Action.ofPerform fun s =>
    match action.perform s with
    | (.ok a, s') => (.ok a, s')
    | (.error failure, s') => (.error failure, { s' with storage := s'.storage.remove path })

/-- Selects the record of a flight and downloads it into the file that a path names. -/
def download (flight : Flight) (path : String) : Action Unit := do
  poll
  let type ← selectRecord flight.index
  if type ≠ .ack then throw (.unexpectedResponse type)
  poll
  (downloadSelected path).removingOnFailure path

end FlightRecorder
