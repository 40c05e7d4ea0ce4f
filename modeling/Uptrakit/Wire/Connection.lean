import Uptrakit.Concurrent.Run
import Uptrakit.Wire.Envelope

/-!
# The connection to the controller

`ControllerConnection` numbers a message, pushes its text into a bounded channel, and a
writer task writes what is in the channel.  `send` and `send_paginated` wait for room in
the channel; `send_best_effort` drops the text if there is none, when its number is gone
already.

As long as no text is dropped, the texts that are written have the numbers 1, 2, 3 and so
on (`written_numbered`).  A text that is dropped leaves a gap, and the controller rejects
the next one (`dropped_leaves_gap`).
-/

namespace Uptrakit.Wire

open Concurrent List

def writeChannelCapacity : Nat := 128

inductive OutboundFrame (T : Type*)
  | text (json : T)
  | pong (data : List UInt8)
  | close
  deriving DecidableEq

namespace OutboundFrame

variable {T : Type*}

def text? : OutboundFrame T → Option T
  | text json => some json
  | _ => none

end OutboundFrame

/-- A message that is to be wrapped, with what `current_trace_context` returns for it. -/
structure Outgoing (M : Type*) where
  message : M
  traceContext : TraceContext
  pagination : Option ReportPagination := none
  deriving DecidableEq

/-- A method of the connection that waits for room in the channel, with the pages that it
has still to wrap. -/
structure Sending (M T : Type*) where
  frame : OutboundFrame T
  pages : List (Outgoing M)
  deriving DecidableEq

structure ControllerConnection (M T : Type*) where
  outSeq : OutgoingSeq
  /-- The method that is under way.  Methods borrow the connection, so there is only one. -/
  sending : Option (Sending M T)
  channel : List (OutboundFrame T)
  writeError : Bool
  /-- The writer task has ended, and with it the channel. -/
  writerEnded : Bool
  written : List (OutboundFrame T)

inductive Event (M : Type*)
  | send (message : Outgoing M)
  /-- The pages of the payload, `none` if it cannot be paginated. -/
  | sendPaginated (pages : Option (List (Outgoing M)))
  | sendBestEffort (message : Outgoing M)
  /-- `recv` gets a ping. -/
  | ping (data : List UInt8)
  | close
  | resume
  /-- The writer task takes a frame, and writes it if there is no error. -/
  | write (ok : Bool)

namespace ControllerConnection

variable {M T : Type*}

def connect : ControllerConnection M T := ⟨.new, none, [], false, false, []⟩

def writtenTexts (c : ControllerConnection M T) : List T := c.written.filterMap (·.text?)

def hasRoom (c : ControllerConnection M T) : Bool :=
  !c.writerEnded && decide (c.channel.length < writeChannelCapacity)

/-- `try_send`: a frame for which there is no room is dropped. -/
def trySend (c : ControllerConnection M T) (frame : OutboundFrame T) :
    ControllerConnection M T :=
  if c.hasRoom then { c with channel := c.channel ++ [frame] } else c

variable {c : ControllerConnection M T}

variable (codec : EnvelopeCodec M T)

/-- The method goes on to wrap the next page, or returns. -/
def nextPage (c : ControllerConnection M T) : List (Outgoing M) → ControllerConnection M T
  | [] => { c with sending := none }
  | page :: pages =>
    let wrapped := c.outSeq.wrapServicePaginated page.message page.traceContext page.pagination
    match codec.toText wrapped.1 with
    | none => { c with outSeq := wrapped.2, sending := none }
    | some json => { c with outSeq := wrapped.2, sending := some ⟨.text json, pages⟩ }

def send (c : ControllerConnection M T) (message : Outgoing M) : ControllerConnection M T :=
  if c.writeError then c else c.nextPage codec [{ message with pagination := none }]

def sendPaginated (c : ControllerConnection M T) (pages : Option (List (Outgoing M))) :
    ControllerConnection M T :=
  if c.writeError then c
  else
    match pages with
    | none => c
    | some pages => c.nextPage codec pages

def sendBestEffort (c : ControllerConnection M T) (message : Outgoing M) :
    ControllerConnection M T :=
  if c.writeError then c
  else
    let wrapped := c.outSeq.wrapService message.message message.traceContext
    match codec.toText wrapped.1 with
    | none => { c with outSeq := wrapped.2 }
    | some json => trySend { c with outSeq := wrapped.2 } (.text json)

/-- The method that waits gets room in the channel, or an error if the channel is closed. -/
def resume (c : ControllerConnection M T) : ControllerConnection M T :=
  match c.sending with
  | none => c
  | some sending =>
    if c.writerEnded then { c with sending := none }
    else if c.hasRoom then
      { c with channel := c.channel ++ [sending.frame] }.nextPage codec sending.pages
    else c

/-- `writer_task`, for the next frame. -/
def write (c : ControllerConnection M T) (ok : Bool) : ControllerConnection M T :=
  match c.writerEnded, c.channel with
  | false, .close :: _ => { c with channel := [], writerEnded := true }
  | false, frame :: channel =>
    if ok then { c with channel := channel, written := c.written ++ [frame] }
    else { c with channel := [], writerEnded := true, writeError := true }
  | _, _ => c

/-- Only one method is under way at a time. -/
def handle (c : ControllerConnection M T) (event : Event M) : ControllerConnection M T :=
  match c.sending, event with
  | _, .resume => c.resume codec
  | _, .write ok => c.write ok
  | some _, _ => c
  | none, .send message => c.send codec message
  | none, .sendPaginated pages => c.sendPaginated codec pages
  | none, .sendBestEffort message => c.sendBestEffort codec message
  | none, .ping data => c.trySend (.pong data)
  | none, .close => { c with sending := some ⟨.close, []⟩ }

/-- No best-effort text is sent while the channel is full. -/
def keepsText (c : ControllerConnection M T) : Event M → Bool
  | .sendBestEffort _ => c.writerEnded || c.hasRoom
  | _ => true

/-! ## Numbers -/

/-- The frames that were written or are on their way to the writer task. -/
def frames (c : ControllerConnection M T) : List (OutboundFrame T) :=
  c.written ++ c.channel ++ (c.sending.map (·.frame)).toList

def texts (c : ControllerConnection M T) : List T := c.frames.filterMap (·.text?)

/-- What was written is numbered from 1 on.  As long as the writer task runs, so is what is on
its way, up to the next number. -/
structure Contiguous (c : ControllerConnection M T) : Prop where
  written : Numbered codec 1 c.writtenTexts
  texts : c.writerEnded = false →
    Numbered codec 1 c.texts ∧ c.outSeq.next = 1 + c.texts.length

namespace Contiguous

variable {codec} {c : ControllerConnection M T}

theorem connect : Contiguous codec (connect : ControllerConnection M T) :=
  ⟨trivial, fun _ => ⟨trivial, rfl⟩⟩

variable {c' : ControllerConnection M T} (h : Contiguous codec c)

include h

/-- Frames that are no texts do not count. -/
theorem of_texts_eq (hs : c'.outSeq = c.outSeq)
    (he : c'.writerEnded = c.writerEnded) (hw : c'.writtenTexts = c.writtenTexts)
    (ht : c'.texts = c.texts) : Contiguous codec c' := by
  refine ⟨hw ▸ h.written, ?_⟩
  rw [he, hs, ht]
  exact h.texts

/-- Once the writer task has ended, only what was written counts. -/
theorem of_writerEnded (he : c'.writerEnded = true)
    (hw : c'.writtenTexts = c.writtenTexts) : Contiguous codec c' := by
  refine ⟨hw ▸ h.written, ?_⟩
  rw [he]
  exact nofun

/-- A text that has just been numbered is on its way. -/
theorem concat (page : Outgoing M) {json : T}
    (hjson : codec.toText (c.outSeq.wrapServicePaginated page.message page.traceContext
      page.pagination).1 = some json) (hs : c'.outSeq = ⟨c.outSeq.next + 1⟩)
    (he : c'.writerEnded = c.writerEnded) (hw : c'.writtenTexts = c.writtenTexts)
    (ht : c'.texts = c.texts ++ [json]) : Contiguous codec c' := by
  refine ⟨hw ▸ h.written, ?_⟩
  rw [he, hs, ht]
  intro hr
  obtain ⟨hn, hne⟩ := h.texts hr
  refine ⟨hn.concat hne hjson, ?_⟩
  rw [length_append]
  show c.outSeq.next + 1 = 1 + (c.texts.length + 1)
  omega

variable (hjson : ∀ e, (codec.toText e).isSome)

include hjson

variable (hidle : c.sending = none)

include hidle

theorem nextPage (pages : List (Outgoing M)) :
    Contiguous codec (c.nextPage codec pages) := by
  cases pages with
  | nil =>
    refine h.of_texts_eq rfl rfl rfl ?_
    simp only [ControllerConnection.texts, frames, ControllerConnection.nextPage, hidle]
  | cons page =>
    obtain ⟨_, ht⟩ := Option.isSome_iff_exists.1 (hjson (c.outSeq.wrapServicePaginated
      page.message page.traceContext page.pagination).1)
    simp only [ControllerConnection.nextPage, ht]
    refine h.concat page ht rfl rfl rfl ?_
    simp [ControllerConnection.texts, frames, hidle, OutboundFrame.text?]

theorem send (message : Outgoing M) :
    Contiguous codec (c.send codec message) := by
  unfold ControllerConnection.send
  split
  · exact h
  · exact h.nextPage hjson hidle _

theorem sendPaginated (pages : Option (List (Outgoing M))) :
    Contiguous codec (c.sendPaginated codec pages) := by
  fun_cases ControllerConnection.sendPaginated codec c pages with
  | case3 _ pages => exact h.nextPage hjson hidle pages
  | _ => exact h

theorem sendBestEffort (hr : (c.writerEnded || c.hasRoom) = true) (message : Outgoing M) :
    Contiguous codec (c.sendBestEffort codec message) := by
  unfold ControllerConnection.sendBestEffort
  split
  · exact h
  · obtain ⟨json, ht⟩ := Option.isSome_iff_exists.1 (hjson (c.outSeq.wrapServicePaginated
      message.message message.traceContext none).1)
    have ht' : codec.toText (c.outSeq.wrapService message.message message.traceContext).1 =
        some json := ht
    simp only [ht']
    generalize ho : (c.outSeq.wrapService message.message message.traceContext).2 = out
    rcases Bool.or_eq_true_iff.1 hr with he | hr
    · rw [trySend, if_neg (by simp [hasRoom, he])]
      exact h.of_writerEnded he rfl
    · rw [trySend, if_pos (show hasRoom { c with outSeq := out } = true from hr)]
      refine h.concat ⟨message.message, message.traceContext, none⟩ ht ho.symm rfl rfl ?_
      simp [ControllerConnection.texts, frames, hidle, OutboundFrame.text?]

omit hjson in
theorem trySend_pong (data : List UInt8) : Contiguous codec (c.trySend (.pong data)) := by
  unfold trySend
  split
  · refine h.of_texts_eq rfl rfl rfl ?_
    simp [ControllerConnection.texts, frames, hidle, OutboundFrame.text?]
  · exact h

omit hidle

theorem resume : Contiguous codec (c.resume codec) := by
  fun_cases ControllerConnection.resume codec c with
  | case2 _ _ he => exact h.of_writerEnded he rfl
  | case3 sending hs =>
    -- The frame moves into the channel, behind the others.
    have hp : Contiguous codec
        { c with channel := c.channel ++ [sending.frame], sending := none } := by
      refine h.of_texts_eq rfl rfl rfl ?_
      simp [ControllerConnection.texts, frames, hs]
    exact hp.nextPage hjson rfl sending.pages
  | _ => exact h

omit hjson in
theorem write (ok) : Contiguous codec (c.write ok) := by
  fun_cases ControllerConnection.write c ok with
  | case1 | case3 => exact h.of_writerEnded rfl rfl
  | case2 frame channel _ hc he =>
    have hf : frames { c with channel := channel, written := c.written ++ [frame] } =
        c.frames := by
      simp [frames, hc]
    obtain ⟨hn, hne⟩ := h.texts he
    rw [ControllerConnection.texts, ← hf] at hn hne
    refine ⟨?_, fun _ => ⟨hn, hne⟩⟩
    rw [frames, append_assoc, filterMap_append] at hn
    exact (numbered_append.1 hn).1
  | case4 => exact h

theorem handle {event : Event M} (hk : c.keepsText event = true) :
    Contiguous codec (c.handle codec event) := by
  fun_cases ControllerConnection.handle codec c event with
  | case1 => exact h.resume hjson
  | case2 ok => exact h.write ok
  | case3 => exact h
  | case4 message hidle => exact h.send hjson hidle message
  | case5 pages hidle => exact h.sendPaginated hjson hidle pages
  | case6 message hidle => exact h.sendBestEffort hjson hidle hk message
  | case7 data hidle => exact h.trySend_pong hidle data
  | case8 hidle =>
    refine h.of_texts_eq rfl rfl rfl ?_
    simp [ControllerConnection.texts, frames, hidle, OutboundFrame.text?]

end Contiguous

/-- In every run of calls in which no best-effort text is sent while the channel is full, the
texts that are written have the numbers 1, 2, 3 and so on, and the controller rejects none of
them for its number. -/
theorem written_numbered (hjson : ∀ e, (codec.toText e).isSome) {events : List (Event M)}
    (hm : Meets (handle codec) (fun c event => c.keepsText event = true) connect events) :
    let c := events.foldl (handle codec) connect
    (∀ i text, c.writtenTexts[i]? = some text →
      codec.header text = .ok ⟨currentProtocolVersion, i + 1⟩) ∧
    ∀ (wire : WireValidate M) (e : String),
      .error (.sequenceValidation e) ∉ deserializeAll codec wire .new c.writtenTexts := by
  intro c
  have hc : Contiguous codec c :=
    foldl_invariant_of_meets (fun _ _ h hk => h.handle hjson hk) .connect hm
  constructor
  · intro i text ht
    rw [hc.written.getElem? ht, Nat.add_comm]
  · intro wire e
    exact hc.written.deserializeAll e

/-! ## Gaps -/

def plainCodec : EnvelopeCodec Unit (ServiceEnvelope Unit) where
  toText := some
  header e := .ok ⟨e.protocolVersion, e.seq⟩
  envelope := .ok
  header_toText := by
    rintro e _ ⟨⟩
    rfl

def beat : Outgoing Unit := ⟨(), ⟨"0", none⟩, none⟩

/-- One best-effort message more than the channel has room for, then a message that waits. -/
def burst : List (Event Unit) :=
  List.replicate 129 (.sendBestEffort beat) ++ [.write true, .send beat, .resume] ++
    List.replicate 128 (.write true)

/-- The number 129 is missing, and the controller rejects the message with number 130. -/
theorem dropped_leaves_gap :
    let c := burst.foldl (handle plainCodec) connect
    (c.writtenTexts.map (·.seq)).drop 126 = [127, 128, 130] ∧
    .error (.sequenceValidation "sequence error: expected 129, received 130") ∈
      deserializeAll plainCodec ⟨fun _ => none, fun _ => none⟩ .new c.writtenTexts := by
  decide +kernel

def steady : List (Event Unit) :=
  [.sendBestEffort beat, .sendPaginated (some [beat, beat]), .resume, .ping [1], .write true,
    .resume, .send beat, .write true, .resume, .write true, .write true]

theorem written_numbered_steady :
    let c := steady.foldl (handle plainCodec) connect
    c.writtenTexts.length = 4 ∧
    ∀ i text, c.writtenTexts[i]? = some text → text.seq = i + 1 := by
  have hm : Meets (handle plainCodec) (fun c event => c.keepsText event = true) connect
      steady := by
    decide
  refine ⟨by decide, ?_⟩
  intro i text ht
  have hh := (written_numbered plainCodec (fun _ => rfl) hm).1 i text ht
  exact (EnvelopeHeader.mk.inj (Except.ok.inj hh)).2

end ControllerConnection

end Uptrakit.Wire
