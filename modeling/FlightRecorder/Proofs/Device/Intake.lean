import FlightRecorder.Proofs.Device.Calls
import Mathlib.Control.Monad.Basic

/-!
# What becomes of the bytes that are read

The decoder belongs to the connection and not to a wait. A wait takes verdicts off it one by one and
reads only when none is left; however it ends, what it has read and not taken stays where it was. So
over a whole run nothing is lost between two waits, and nothing is taken twice.

* `Wait`, `Session.waitFor` — a wait, with what it read and what it took
* `Session.Waits` — the waits between two sessions of one run
* `Session.Heard` — what was read and taken between two sessions
* `Session.Waits.delivers` — a frame that a wait gave up on is delivered to a later one
* `waits_lose_nothing` — what the waits of a run took, and what is left for the next one
-/

namespace FlightRecorder

open Session

/-! ## Bytes and verdicts of a history -/

/-- The bytes that were read from the link in a stretch of history. -/
def receivedBytes (history : List Event) : Bytes :=
  history.flatMap fun
    | .received bytes => bytes
    | _ => []

/-- The verdicts that were taken off the decoder in a stretch of history. -/
def examinedVerdicts (history : List Event) : List Verdict :=
  history.filterMap fun
    | .examined verdict => some verdict
    | _ => none

@[simp]
theorem receivedBytes_append (first second : List Event) :
    receivedBytes (first ++ second) = receivedBytes first ++ receivedBytes second := by
  simp [receivedBytes]

@[simp]
theorem examinedVerdicts_append (first second : List Event) :
    examinedVerdicts (first ++ second) = examinedVerdicts first ++ examinedVerdicts second := by
  simp [examinedVerdicts]

/-- All bytes that are still to come. -/
def arrivingBytes (incoming : List Arrival) : Bytes :=
  incoming.flatMap fun
    | .data bytes => bytes
    | _ => []

/-- The bytes that a wait for bytes brings. -/
def Reception.bytes : Reception → Bytes
  | received bytes => bytes
  | _ => []

/-- What is read is gone from what is still to come, and nothing else is. -/
theorem arrivingBytes_receive (deadline now : Nat) (incoming : List Arrival) :
    arrivingBytes incoming = (receive deadline now incoming).1.bytes
      ++ arrivingBytes (receive deadline now incoming).2.2 := by
  fun_induction receive deadline now incoming with
  | case1 => rfl
  | case2 now rest ih => exact ih
  | case3 now byte bytes rest =>
    show (byte :: bytes) ++ arrivingBytes rest = (byte :: bytes).take readSize
      ++ ((byte :: bytes).drop readSize ++ arrivingBytes rest)
    rw [← List.append_assoc, List.take_append_drop]
  | case4 now duration rest _ ih => exact ih
  | case5 => rfl
  | case6 now moment rest _ ih => exact ih
  | case7 => rfl
  | case8 => rfl
  | case9 => rfl

/-! ## What is read and taken -/

/-- Between two sessions these bytes were read and these verdicts taken off the decoder. -/
structure Session.Heard (s : Session) (received : Bytes) (consumed : List Verdict) (s' : Session) :
    Prop where
  adds : ∃ events, s'.history = s.history ++ events ∧ receivedBytes events = received ∧
    examinedVerdicts events = consumed
  incoming : arrivingBytes s.incoming = received ++ arrivingBytes s'.incoming
  decoder : s.decoder.push received
    = { state := s'.decoder.state, ready := consumed ++ s'.decoder.ready }

theorem Decoder.push_of_ready_eq (state : DecoderState) (first second : List Verdict)
    (data : Bytes) :
    ({ state := state, ready := first ++ second } : Decoder).push data
      = { (({ state := state, ready := second } : Decoder).push data) with
          ready := first ++ (({ state := state, ready := second } : Decoder).push data).ready } := by
  simp only [push, List.append_assoc]

namespace Session.Heard

variable {s s' s'' : Session} {received received' : Bytes} {consumed consumed' : List Verdict}

theorem trans (h : s.Heard received consumed s') (h' : s'.Heard received' consumed' s'') :
    s.Heard (received ++ received') (consumed ++ consumed') s'' where
  adds := by
    obtain ⟨events, heq, hreceived, hconsumed⟩ := h.adds
    obtain ⟨events', heq', hreceived', hconsumed'⟩ := h'.adds
    refine ⟨events ++ events', by rw [heq', heq, List.append_assoc], ?_, ?_⟩
    · rw [receivedBytes_append, hreceived, hreceived']
    · rw [examinedVerdicts_append, hconsumed, hconsumed']
  incoming := by rw [h.incoming, h'.incoming, List.append_assoc]
  decoder := by
    rw [Decoder.push_append, h.decoder, Decoder.push_of_ready_eq]
    show ({ (s'.decoder.push received') with
      ready := consumed ++ (s'.decoder.push received').ready } : Decoder) = _
    rw [h'.decoder, List.append_assoc]

theorem stretch (h : s.Heard received consumed s') :
    receivedBytes (s.stretch s') = received ∧ examinedVerdicts (s.stretch s') = consumed := by
  obtain ⟨events, heq, hreceived, hconsumed⟩ := h.adds
  rw [stretch_eq heq]
  exact ⟨hreceived, hconsumed⟩

theorem examine {verdict : Verdict} {ready : List Verdict} (h : s.decoder.ready = verdict :: ready) :
    s.Heard [] [verdict] (s.examine verdict ready) where
  adds := ⟨[.examined verdict], history_note _ _, rfl, rfl⟩
  incoming := rfl
  decoder := by
    rw [Decoder.push_nil]
    exact congrArg (Decoder.mk s.decoder.state) h

theorem absorb {deadline clock : Nat} {bytes : Bytes} {incoming : List Arrival}
    (h : receive deadline s.clock s.incoming = (.received bytes, clock, incoming)) :
    s.Heard bytes [] (s.absorb bytes clock incoming) where
  adds := by
    refine ⟨[.waited clock, .received bytes], ?_, List.append_nil bytes, rfl⟩
    rw [Session.absorb, waitUntil, history_note, history_note, List.append_assoc]
    rfl
  incoming := by
    rw [arrivingBytes_receive deadline s.clock s.incoming, h]
    rfl
  decoder := rfl

/-- A wait for bytes that brings none. -/
theorem waited {deadline clock : Nat} {reception : Reception} {incoming : List Arrival}
    (h : receive deadline s.clock s.incoming = (reception, clock, incoming))
    (hnone : reception.bytes = []) : s.Heard [] [] (s.waited clock incoming) where
  adds := ⟨[.waited clock], history_note _ _, rfl, rfl⟩
  incoming := by
    rw [arrivingBytes_receive deadline s.clock s.incoming, h]
    exact congrArg (· ++ arrivingBytes incoming) hnone
  decoder := Decoder.push_nil _

end Session.Heard

/-! ## One wait -/

/-- These verdicts are what a wait takes that ends so: none of them is the reply that it waits for,
except for the last one of a wait that succeeds. -/
def TakesUpToReply (sequence : UInt16) (result : Except Failure Reply) (consumed : List Verdict) :
    Prop :=
  ∃ discarded, (∀ verdict ∈ discarded, ∀ reply, ¬ verdict.Answers sequence reply) ∧
    match result with
    | .ok reply => ∃ verdict, verdict.Answers sequence reply ∧ consumed = discarded ++ [verdict]
    | .error _ => consumed = discarded

theorem TakesUpToReply.cons {sequence : UInt16} {result : Except Failure Reply}
    {consumed : List Verdict} {verdict : Verdict} (h : TakesUpToReply sequence result consumed)
    (hverdict : verdict.reply? sequence = none) :
    TakesUpToReply sequence result (verdict :: consumed) := by
  obtain ⟨discarded, hdiscarded, hend⟩ := h
  refine ⟨verdict :: discarded, List.forall_mem_cons.mpr
    ⟨Verdict.reply?_eq_none_iff.mp hverdict, hdiscarded⟩, ?_⟩
  cases result with
  | error failure => exact congrArg (verdict :: ·) hend
  | ok reply =>
    obtain ⟨last, hlast, hconsumed⟩ := hend
    exact ⟨last, hlast, congrArg (verdict :: ·) hconsumed⟩

/-- The first verdict that is taken is the reply if it can be. -/
theorem TakesUpToReply.eq_ok_of_answers {sequence : UInt16} {result : Except Failure Reply}
    {others : List Verdict} {verdict : Verdict} {reply : Reply}
    (h : TakesUpToReply sequence result (verdict :: others))
    (hverdict : verdict.Answers sequence reply) : result = .ok reply := by
  obtain ⟨discarded, hdiscarded, hend⟩ := h
  have hnot : verdict ∉ discarded := fun hmem => hdiscarded verdict hmem reply hverdict
  cases result with
  | error failure =>
    have hconsumed : verdict :: others = discarded := hend
    rw [← hconsumed] at hnot
    exact absurd List.mem_cons_self hnot
  | ok found =>
    obtain ⟨last, hlast, hconsumed⟩ := hend
    cases discarded with
    | cons first discarded =>
      rw [List.cons_append, List.cons.injEq] at hconsumed
      rw [← hconsumed.1] at hnot
      exact absurd List.mem_cons_self hnot
    | nil =>
      rw [List.nil_append, List.cons.injEq] at hconsumed
      rw [← hconsumed.1] at hlast
      have hsame := (Verdict.reply?_eq_some_iff.mpr hlast).symm.trans
        (Verdict.reply?_eq_some_iff.mpr hverdict)
      rw [Option.some.inj hsame]

/-- **A wait takes verdicts up to its reply, and all there are if it fails.** -/
theorem exists_heard_awaitFrom (sequence : UInt16) (deadline : Nat) (s : Session) :
    ∃ received consumed, s.Heard received consumed (awaitFrom sequence deadline s).2 ∧
      TakesUpToReply sequence (awaitFrom sequence deadline s).1 consumed ∧
      ∀ failure, (awaitFrom sequence deadline s).1 = .error failure →
        (awaitFrom sequence deadline s).2.decoder.ready = [] := by
  have hnone : ∀ failure, TakesUpToReply sequence (.error failure) [] :=
    fun _ => ⟨[], List.forall_mem_nil _, rfl⟩
  fun_induction awaitFrom sequence deadline s with
  | case1 s verdict ready hr reply hv =>
    refine ⟨[], [verdict], .examine hr, ?_, fun _ herror => by cases herror⟩
    exact ⟨[], List.forall_mem_nil _, verdict, Verdict.reply?_eq_some_iff.mp hv, rfl⟩
  | case2 s verdict ready hr hv ih =>
    obtain ⟨received, consumed, hheard, htakes, hqueue⟩ := ih
    exact ⟨received, verdict :: consumed, (Heard.examine hr).trans hheard, htakes.cons hv, hqueue⟩
  | case3 s hr bytes clock incoming hb ih =>
    obtain ⟨received, consumed, hheard, htakes, hqueue⟩ := ih
    exact ⟨bytes ++ received, consumed, (Heard.absorb hb).trans hheard, htakes, hqueue⟩
  | case4 s hr clock incoming hb => exact ⟨[], [], .waited hb rfl, hnone _, fun _ _ => hr⟩
  | case5 s hr clock incoming hb => exact ⟨[], [], .waited hb rfl, hnone _, fun _ _ => hr⟩
  | case6 s hr clock incoming hb => exact ⟨[], [], .waited hb rfl, hnone _, fun _ _ => hr⟩

/-- A wait for the reply to a request. -/
structure Wait where
  sequence : UInt16
  result : Except Failure Reply
  /-- The bytes that were read during the wait. -/
  received : Bytes
  /-- The verdicts that were taken off the decoder, earliest first. -/
  consumed : List Verdict

/-- The wait for the reply to request `sequence` up to a deadline. -/
def Session.waitFor (s : Session) (sequence : UInt16) (deadline : Nat) : Wait where
  sequence := sequence
  result := (awaitFrom sequence deadline s).1
  received := receivedBytes (s.stretch (awaitFrom sequence deadline s).2)
  consumed := examinedVerdicts (s.stretch (awaitFrom sequence deadline s).2)

theorem Session.heard_waitFor (s : Session) (sequence : UInt16) (deadline : Nat) :
    s.Heard (s.waitFor sequence deadline).received (s.waitFor sequence deadline).consumed
      (awaitFrom sequence deadline s).2 := by
  obtain ⟨received, consumed, hheard, -⟩ := exists_heard_awaitFrom sequence deadline s
  rw [waitFor, hheard.stretch.1, hheard.stretch.2]
  exact hheard

theorem Session.takesUpToReply_waitFor (s : Session) (sequence : UInt16) (deadline : Nat) :
    TakesUpToReply sequence (s.waitFor sequence deadline).result
      (s.waitFor sequence deadline).consumed := by
  obtain ⟨received, consumed, hheard, htakes, -⟩ := exists_heard_awaitFrom sequence deadline s
  rw [waitFor, hheard.stretch.2]
  exact htakes

theorem Session.ready_waitFor {s : Session} {sequence : UInt16} {deadline : Nat} {failure : Failure}
    (h : (s.waitFor sequence deadline).result = .error failure) :
    (awaitFrom sequence deadline s).2.decoder.ready = [] := by
  obtain ⟨received, consumed, -, -, hqueue⟩ := exists_heard_awaitFrom sequence deadline s
  exact hqueue failure h

/-! ## Between waits -/

/-- What is noted while nothing is read and no verdict is looked at. -/
def Event.IsUnheard : Event → Prop
  | received _ => False
  | examined _ => False
  | _ => True

/-- Between two sessions nothing was read, and no verdict was taken. -/
structure Session.Unheard (s s' : Session) : Prop where
  incoming : s'.incoming = s.incoming
  decoder : s'.decoder = s.decoder
  adds : s.Adds Event.IsUnheard s'

namespace Session.Unheard

variable {s s' s'' : Session}

theorem refl (s : Session) : s.Unheard s := ⟨rfl, rfl, .refl _ s⟩

theorem trans (h : s.Unheard s') (h' : s'.Unheard s'') : s.Unheard s'' :=
  ⟨h'.incoming.trans h.incoming, h'.decoder.trans h.decoder, h.adds.trans h'.adds⟩

theorem of_aside (h : s.Aside s') : s.Unheard s' where
  incoming := h.incoming
  decoder := h.decoder
  adds := h.adds.mono fun event haside => by
    cases event <;> first | exact haside.elim | trivial

theorem of_issuing (s : Session) (request : Frame) : s.Unheard (s.issuing request) :=
  ⟨rfl, rfl, .of_note rfl trivial⟩

theorem heard (h : s.Unheard s') : s.Heard [] [] s' where
  adds := by
    obtain ⟨events, heq, hunheard⟩ := h.adds
    refine ⟨events, heq, List.flatMap_eq_nil_iff.mpr fun event hevent => ?_,
      List.filterMap_eq_nil_iff.mpr fun event hevent => ?_⟩
    · have := hunheard event hevent
      cases event <;> first | rfl | exact this.elim
    · have := hunheard event hevent
      cases event <;> first | rfl | exact this.elim
  incoming := by
    rw [h.incoming]
    rfl
  decoder := by
    rw [Decoder.push_nil, h.decoder]
    rfl

end Session.Unheard

theorem leads_unheard_transmit (bytes : Bytes) (timeout : Nat) :
    (transmit bytes timeout).Leads Unheard := by
  refine leads_transmit (R := Unheard) .trans (fun s outgoing taken => ?_) (fun s moment => ?_) bytes timeout
  · exact ⟨rfl, rfl, .of_note rfl trivial⟩
  · exact ⟨rfl, rfl, .of_note rfl trivial⟩

theorem leads_unheard_request (type : MessageType) (payload : Bytes) :
    (request type payload).Leads Unheard :=
  leads_request Unheard.refl Unheard.trans Unheard.of_issuing leads_unheard_transmit type payload

/-! ## The waits of a run -/

/-- One wait. -/
def Session.WaitsOnce (s : Session) (wait : Wait) (s' : Session) : Prop :=
  ∃ sequence deadline, wait = s.waitFor sequence deadline ∧
    s' = (awaitFrom sequence deadline s).2

/-- Between two sessions of one run these were the waits, and between them nothing was read. -/
def Session.Waits (s : Session) (waits : List Wait) (s' : Session) : Prop :=
  Traced Unheard WaitsOnce s waits s'

theorem Session.waitsOnce (s : Session) (sequence : UInt16) (deadline : Nat) :
    s.WaitsOnce (s.waitFor sequence deadline) (awaitFrom sequence deadline s).2 :=
  ⟨sequence, deadline, rfl, rfl⟩

namespace Session.Waits

variable {s s' : Session} {waits waits' : List Wait}

theorem split (h : s.Waits (waits ++ waits') s') :
    ∃ middle, s.Waits waits middle ∧ middle.Waits waits' s' :=
  Traced.split Unheard.refl h

/-- **What was read in the waits of a run has become what they took and what is left.** -/
theorem heard (h : s.Waits waits s') :
    s.Heard (waits.flatMap Wait.received) (waits.flatMap Wait.consumed) s' := by
  induction h with
  | quiet hquiet => exact hquiet.heard
  | cons hquiet hwait _ ih =>
    obtain ⟨sequence, deadline, rfl, rfl⟩ := hwait
    exact hquiet.heard.trans ((heard_waitFor _ sequence deadline).trans ih)

theorem takesUpToReply (h : s.Waits waits s') :
    ∀ wait ∈ waits, TakesUpToReply wait.sequence wait.result wait.consumed := by
  induction h with
  | quiet => exact List.forall_mem_nil _
  | cons _ hwait _ ih =>
    obtain ⟨sequence, deadline, rfl, -⟩ := hwait
    exact List.forall_mem_cons.mpr ⟨takesUpToReply_waitFor _ sequence deadline, ih⟩

theorem ready_eq_of_failed {wait : Wait} {failure : Failure} (h : s.Waits [wait] s')
    (hfailed : wait.result = .error failure) : s'.decoder.ready = [] := by
  cases h with
  | cons _ hwait hrest =>
    obtain ⟨sequence, deadline, rfl, rfl⟩ := hwait
    cases hrest with
    | quiet hquiet => rw [hquiet.decoder, ready_waitFor hfailed]

end Session.Waits

/-- **Every call is waits, and between them nothing is read.** -/
theorem callSpanning_waitsOnce : CallSpanning (Traceable Unheard WaitsOnce) where
  trans := Traceable.trans Unheard.trans
  aside h := .of_quiet (.of_aside h)
  request type _ _ s := .of_quiet (leads_unheard_request type _ s)
  exchange type _ timeout _ :=
    leads_exchange_of_await (Traceable.refl Unheard.refl) (Traceable.trans Unheard.trans)
      (fun sequence deadline s => .of_step Unheard.refl (s.waitsOnce sequence deadline))
      (fun s => .of_quiet (leads_unheard_request type _ s)) timeout
  prepareHeader _ _ s := .of_quiet ⟨rfl, rfl, .refl _ s⟩
  transmit bytes timeout s := .of_quiet (leads_unheard_transmit bytes timeout s)
  await sequence deadline s := .of_step Unheard.refl (s.waitsOnce sequence deadline)

/-! ## Frames across waits -/

/-- The frame is the first thing that a wait takes, and its reply if it can be. -/
def Wait.Delivers (wait : Wait) (f : Frame) : Prop :=
  (∃ others, wait.consumed = .accepted f :: others) ∧
    ∀ reply, (Verdict.accepted f).Answers wait.sequence reply → wait.result = .ok reply

/-- A wait that begins with an empty queue and reads the rest of a frame delivers it. -/
theorem Session.Waits.delivers_of_run {s s' : Session} {wait : Wait} {f : Frame} {tail after : Bytes}
    (h : s.Waits [wait] s') (hready : s.decoder.ready = [])
    (hrun : s.decoder.state.run tail = (.idle, [.accepted f]))
    (hreceived : wait.received = tail ++ after) : wait.Delivers f := by
  have hdecoder := congrArg Decoder.ready h.heard.decoder
  simp only [List.flatMap_cons, List.flatMap_nil, List.append_nil, hreceived, Decoder.push, hready,
    DecoderState.run_append, hrun, List.nil_append, List.singleton_append] at hdecoder
  have htakes := h.takesUpToReply wait List.mem_cons_self
  have hfirst : ∃ others, wait.consumed = .accepted f :: others := by
    cases hconsumed : wait.consumed with
    | cons first others =>
      rw [hconsumed, List.cons_append, List.cons.injEq] at hdecoder
      exact ⟨others, by rw [hdecoder.1]⟩
    | nil =>
      -- A wait that took nothing has failed, and then it has left nothing either.
      exfalso
      rw [hconsumed] at hdecoder htakes
      obtain ⟨discarded, -, hend⟩ := htakes
      cases hresult : wait.result with
      | error failure =>
        rw [h.ready_eq_of_failed hresult] at hdecoder
        cases hdecoder
      | ok reply =>
        rw [hresult] at hend
        obtain ⟨last, -, hnil⟩ := hend
        exact List.append_ne_nil_of_right_ne_nil discarded (List.cons_ne_nil last []) hnil.symm
  refine ⟨hfirst, fun reply hreply => ?_⟩
  obtain ⟨others, hconsumed⟩ := hfirst
  rw [hconsumed] at htakes
  exact htakes.eq_ok_of_answers hreply

/-- **A frame that a wait gave up on is delivered to the wait that reads its end.** -/
theorem Session.Waits.delivers {s₀ s : Session} {front between back : List Wait}
    {failed later : Wait} {failure : Failure} {f : Frame} {before head middle tail after : Bytes}
    (h : s₀.Waits (front ++ failed :: between ++ later :: back) s)
    (hfailed : failed.result = .error failure) (hf : f.Consistent)
    (hencode : f.encode = head ++ middle ++ tail) (hhead : head ≠ []) (htail : tail ≠ [])
    (hfirst : front.flatMap Wait.received ++ failed.received = before ++ head)
    (hmiddle : between.flatMap Wait.received = middle) (hlater : later.received = tail ++ after) :
    later.Delivers f := by
  have hwaits : front ++ failed :: between ++ later :: back
      = (front ++ [failed]) ++ (between ++ ([later] ++ back)) := by simp
  rw [hwaits] at h
  obtain ⟨s₁, hfront, hrest⟩ := h.split
  obtain ⟨s₂, hbetween, hrest⟩ := hrest.split
  obtain ⟨s₃, hwait, -⟩ := hrest.split
  have hready : s₁.decoder.ready = [] := by
    obtain ⟨t, -, hone⟩ := hfront.split
    exact hone.ready_eq_of_failed hfailed
  -- The failed wait stopped inside the frame, wherever the bytes before it had left the decoder.
  let opened := (s₀.decoder.state.run before).1
  have hstate : s₁.decoder.state = (opened.run head).1 := by
    have hdecoder := congrArg Decoder.state hfront.heard.decoder
    rw [List.flatMap_append, List.flatMap_singleton, hfirst, Decoder.push,
      DecoderState.run_append] at hdecoder
    exact hdecoder.symm
  have hmiddleRun : (opened.run (head ++ middle)).2
      = (opened.run head).2 ++ (s₁.decoder.state.run middle).2 := by
    rw [DecoderState.run_append, hstate]
  have hnone : (s₁.decoder.state.run middle).2 = [] := by
    rw [hf.run_front hencode (by simp [hhead]) htail,
      hf.run_front (hencode.trans (List.append_assoc _ _ _)) hhead (by simp [htail])] at hmiddleRun
    exact List.self_eq_append_right.mp hmiddleRun
  have hdecoder := hbetween.heard.decoder
  rw [hmiddle, Decoder.push, hready, hnone, Decoder.mk.injEq] at hdecoder
  obtain ⟨hstate₂, hready₂⟩ := hdecoder
  refine hwait.delivers_of_run (List.append_eq_nil_iff.mp hready₂.symm).2 ?_ hlater
  rw [← hstate₂, hstate, ← hf.run_back hencode (by simp [hhead]) htail opened,
    DecoderState.run_append]

/-! ## Whole runs -/

/--
**Between its waits a connection loses no frame and sees none twice.**

Whatever the calls on a new connection are, what their waits read is the front of what arrives. The
verdicts that they took one after the other, and behind them those that are left, are the verdicts of
a fresh decoder on all that was read, and what is left of its state is the decoder's state. Each wait
took all up to its reply, and all there was if it failed. So a frame that a failed wait stopped in is
delivered whole to the wait that reads its end, and answers it if it can.
-/
theorem waits_lose_nothing (settings : Settings) (incoming : List Arrival) (outgoing : Outgoing)
    (storage : Storage) :
    let s₀ := Session.start settings incoming outgoing storage
    (∀ calls, ∃ waits, s₀.Waits waits (s₀.afterCalls calls)) ∧
    ∀ waits s, s₀.Waits waits s →
      (receivedBytes s.history = waits.flatMap Wait.received ∧
        examinedVerdicts s.history = waits.flatMap Wait.consumed ∧
        arrivingBytes incoming = receivedBytes s.history ++ arrivingBytes s.incoming) ∧
      Decoder.fresh.push (receivedBytes s.history)
        = { state := s.decoder.state, ready := examinedVerdicts s.history ++ s.decoder.ready } ∧
      (∀ wait ∈ waits, TakesUpToReply wait.sequence wait.result wait.consumed) ∧
      ∀ front failed between later back failure f before head middle tail after,
        waits = front ++ failed :: between ++ later :: back → failed.result = .error failure →
        f.Consistent → f.encode = head ++ middle ++ tail → head ≠ [] → tail ≠ [] →
        front.flatMap Wait.received ++ failed.received = before ++ head →
        between.flatMap Wait.received = middle → later.received = tail ++ after →
        later.Delivers f := by
  intro s₀
  refine ⟨fun calls => s₀.leads_afterCalls callSpanning_waitsOnce calls, fun waits s h => ?_⟩
  obtain ⟨events, hhistory, hreceived, hconsumed⟩ := h.heard.adds
  have hnew : s₀.history = [] := rfl
  rw [hnew, List.nil_append] at hhistory
  rw [hhistory, hreceived, hconsumed]
  refine ⟨⟨rfl, rfl, h.heard.incoming⟩, h.heard.decoder, h.takesUpToReply, ?_⟩
  intro front failed between later back failure f before head middle tail after hwaits hfailed hf
    hencode hhead htail hfirst hmiddle hlater
  rw [hwaits] at h
  exact h.delivers hfailed hf hencode hhead htail hfirst hmiddle hlater

/-- A link that brings the acknowledgement of request 0 in three parts, with long pauses. -/
def arrivalsInParts : List Arrival :=
  let reply := (Frame.reply 9 .ack 0 [200]).encode
  [.data (reply.take 3), .silence 5000, .data ((reply.drop 3).take 4), .silence 5000,
    .data (reply.drop 7)]

/-- A ping and another wait give up on their answer; the third wait gets it. -/
theorem waits_lose_nothing_of_parts :
    let reply := Frame.reply 9 .ack 0 [200]
    let s := Session.start .standard arrivalsInParts .unlimited .empty
    let s₁ := ((request .ping []).perform s).2
    let s₂ := (awaitFrom 0 2000 s₁).2
    let s₃ := (awaitFrom 0 7000 s₂).2
    (s₁.waitFor 0 2000).result = .error .timeout ∧ (s₂.waitFor 0 7000).result = .error .timeout ∧
      (s₃.waitFor 0 20000).Delivers reply := by
  intro reply s s₁ s₂ s₃
  have hwaits : s.Waits ([] ++ s₁.waitFor 0 2000 :: [s₂.waitFor 0 7000] ++ s₃.waitFor 0 20000 :: [])
      (awaitFrom 0 20000 s₃).2 :=
    .cons (leads_unheard_request .ping [] s) (s₁.waitsOnce 0 2000) <|
      .cons (.refl s₂) (s₂.waitsOnce 0 7000) <| .single .refl (s₃.waitsOnce 0 20000)
  have hfailed : (s₁.waitFor 0 2000).result = .error .timeout := by decide +kernel
  refine ⟨hfailed, by decide +kernel, ?_⟩
  refine ((waits_lose_nothing .standard arrivalsInParts .unlimited .empty).2 _ _ hwaits).2.2.2 _ _ _
    _ _ _ _ [] (reply.encode.take 3) ((reply.encode.drop 3).take 4) (reply.encode.drop 7) [] rfl
    hfailed (Frame.consistent_build _ _ (by decide)) ?_ ?_ ?_ ?_ ?_ ?_ <;> decide +kernel

end FlightRecorder
