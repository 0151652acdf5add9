import FlightRecorder.Proofs.Device.Alike
import FlightRecorder.Proofs.Device.Calls
import FlightRecorder.Proofs.Device.Rollback

/-!
# The grouping of bytes on the link

A device may send its bytes one by one or many frames at once: of two links that bring the same bytes
and the same pauses, a connection makes the same use. While one session has read further ahead than
the other, its decoder holds what the other one still finds on the link, so both can meet the same.

* `allNumbers` — sessions that are alike for all numbers differ in nothing but what was read when
* `DeviceCall.steady_perform` — every call does the same on sessions that are alike
* `accounts_of_signals_eq` — a run of calls on two links
-/

namespace FlightRecorder

open Session

/-! ## Calls on sessions that are alike -/

/-- All numbers that a request can have. -/
def allNumbers : List UInt16 := (List.range UInt16.size).map UInt16.ofNat

theorem mem_allNumbers (sequence : UInt16) : sequence ∈ allNumbers := by
  refine List.mem_map.mpr ⟨sequence.toNat, List.mem_range.mpr sequence.toNat_lt, ?_⟩
  exact UInt16.ofNat_toNat

theorem Session.uses_allNumbers (s s' : Session) : s.Uses s' allNumbers :=
  fun request _ => mem_allNumbers request.sequence

theorem steady_watchedBy {used : List UInt16} (observer : Observer) :
    Steady used fun s => ((), s.watchedBy observer) where
  onward s := .refl _ s
  agrees h _ := ⟨rfl, h.watch observer⟩

theorem steady_prepareHeader {used : List UInt16} (type : MessageType) (payload : Bytes) :
    Steady used (prepareHeader type payload).perform where
  onward s := .refl _ s
  agrees {s t} h _ := by
    rw [prepareHeader, Action.perform_ofPerform, Action.perform_ofPerform, h.nextSequence]
    exact ⟨rfl, { h with nextSequence := rfl }⟩

theorem steady_sendStart {used : List UInt16} : Steady used sendStart.perform :=
  steady_get (fun h => by rw [h]) fun _ => steady_transmit _ _

theorem steady_awaitReply (sequence : UInt16) (timeout : Nat) :
    Steady allNumbers (awaitReply sequence timeout).perform where
  onward s := .of_listened (listened_awaitFrom sequence (s.clock + timeout) s)
  agrees {s t} h _ := by
    rw [awaitReply, Action.perform_ofPerform, Action.perform_ofPerform, h.clock]
    exact h.awaitFrom (mem_allNumbers sequence) _

/-- **Every call does the same on sessions that are alike for all numbers.** -/
theorem DeviceCall.steady_perform (call : DeviceCall) : Steady allNumbers call.perform := by
  -- A call runs something and puts what comes out of it into its result.
  have hresult : ∀ {α : Type} {run : Session → α × Session} (f : α → CallResult),
      Steady allNumbers run → Steady allNumbers fun s => (f (run s).1, (run s).2) :=
    fun f h => h.andThen (fun a => steady_const (f a)) fun _ => rfl
  cases call with
  | operate op observer =>
    have hop : Steady allNumbers fun s => op.perform (s.watchedBy observer) :=
      (steady_watchedBy observer).andThen (fun _ => op.composed.steady) fun _ => rfl
    exact hresult .operated hop
  | prepareHeader type payload => exact hresult .prepared (steady_prepareHeader type payload)
  | sendStart => exact hresult .sent steady_sendStart
  | sendHeader header timeout => exact hresult .sent (steady_transmit _ timeout)
  | sendStuffed bytes timeout => exact hresult .sent (steady_transmit _ timeout)
  | awaitReply sequence timeout => exact hresult .replied (steady_awaitReply sequence timeout)
  | awaitAcknowledgement sequence timeout =>
    have hawait : Steady allNumbers (FlightRecorder.awaitAcknowledgement sequence timeout).perform :=
      (steady_awaitReply sequence timeout).bind fun _ => steady_pure _
    exact hresult .acknowledged hawait

/-! ## What the caller can tell -/

theorem Session.Onward.sentBytes_eq {s s' : Session} (h : s.Onward s') :
    sentBytes s'.history = sentBytes s.history ++ sentBytes (s.stretch s') := by
  obtain ⟨events, heq, -⟩ := h
  rw [stretch_eq heq, heq, sentBytes_append]

/-- What the caller can tell of the calls does not show which of two sessions that are alike they
were made on. -/
theorem Session.Alike.accounts_eq {s t : Session} (h : s.Alike allNumbers t)
    (calls : List DeviceCall) :
    (t.stages calls).map Stage.account = (s.stages calls).map Stage.account := by
  induction calls generalizing s t with
  | nil => rfl
  | cons call calls ih =>
    have hsteady : Steady allNumbers call.perform := call.steady_perform
    obtain ⟨hresult, hagain⟩ := hsteady.agrees h (s.uses_allNumbers _)
    have hsent : sentBytes (t.stretch (call.perform t).2)
        = sentBytes (s.stretch (call.perform s).2) := by
      have hboth := hagain.sent
      rw [Onward.sentBytes_eq (hsteady.onward t), Onward.sentBytes_eq (hsteady.onward s),
        h.sent] at hboth
      exact List.append_cancel_left hboth
    rw [stages, stages, List.map_cons, List.map_cons, ih hagain]
    simp only [Stage.account, hresult, hsent, h.clock, hagain.clock, hagain.storage,
      hagain.observer]

/--
**How bytes are grouped does not matter.**

On two links that bring the same bytes and pauses, but cut differently into arrivals, the same calls
end with the same results and lists, send the same bytes, take the same time, leave the same files
and report the same to their observers, one call after the other.
-/
theorem accounts_of_signals_eq {s : Session} {incoming : List Arrival} (calls : List DeviceCall)
    (h : signals incoming = signals s.incoming) :
    (({ s with incoming := incoming } : Session).stages calls).map Stage.account
      = (s.stages calls).map Stage.account := by
  have halike : s.Alike allNumbers { s with incoming := incoming } :=
    { clock := rfl
      outgoing := rfl
      storage := rfl
      settings := rfl
      nextSequence := rfl
      observer := rfl
      sent := rfl
      prospects := by
        rw [prospects, prospects]
        show relevant _ (_ ++ s.decoder.state.prospects (signals incoming)) = _
        rw [h] }
  exact halike.accounts_eq calls

/-- The answers of `sessionWithWholeTransfer` in two bytes, nothing, and the rest of the selection;
then, behind the pause, both pieces of the record at once, but for the last byte. -/
def arrivalsCutAnew : List Arrival :=
  let selection := (Frame.reply 1 .ack 0 []).encode
  let pieces := (Frame.reply 2 .ack 1 [50, 65, 66]).encode
    ++ (Frame.reply 3 .ack 2 [200, 67, endOfContent]).encode
  [.data (selection.take 2), .data [], .data (selection.drop 2), .silence 20,
    .data pieces.dropLast, .data (pieces.drop (pieces.length - 1))]

/-- A download, a ping that is not answered, and a wait for an answer that was used up. -/
theorem accounts_of_arrivalsCutAnew :
    let calls : List DeviceCall := [.operate (.download flightInAugust "record.igc") .patient,
      .operate .ping .patient, .awaitReply 2 5]
    signals arrivalsCutAnew = signals sessionWithWholeTransfer.incoming ∧
      (({ sessionWithWholeTransfer with incoming := arrivalsCutAnew } : Session).stages calls).map
          Stage.account
        = (sessionWithWholeTransfer.stages calls).map Stage.account := by
  have h : signals arrivalsCutAnew = signals sessionWithWholeTransfer.incoming := by decide +kernel
  exact ⟨h, accounts_of_signals_eq _ h⟩

end FlightRecorder
