import Uptrakit.Wire.Paginate

/-!
# Envelopes

Every message on a connection travels in an envelope with the number that
`OutgoingSeq` has assigned to it; the receiver's `IncomingSeq` expects the numbers
1, 2, 3 and so on (`crates/shared/wire/src/envelope.rs`).  `deserialize_service_msg` is
how the controller reads a text frame.

Messages and texts are any types.  How an envelope is written as a text and read again
is a parameter, of which only the header matters here.
-/

namespace Uptrakit.Wire

open List

def currentProtocolVersion : Nat := 1

structure TraceContext where
  traceId : String
  spanId : Option String
  deriving DecidableEq

structure ServiceEnvelope (M : Type*) where
  protocolVersion : Nat
  seq : Nat
  traceContext : TraceContext
  pagination : Option ReportPagination
  message : M

/-! ## Sequence numbers -/

structure OutgoingSeq where
  next : Nat
  deriving DecidableEq

namespace OutgoingSeq

variable {M : Type*}

def new : OutgoingSeq := ⟨1⟩

def wrapServicePaginated (out : OutgoingSeq) (message : M) (traceContext : TraceContext)
    (pagination : Option ReportPagination) : ServiceEnvelope M × OutgoingSeq :=
  (⟨currentProtocolVersion, out.next, traceContext, pagination, message⟩, ⟨out.next + 1⟩)

def wrapService (out : OutgoingSeq) (message : M) (traceContext : TraceContext) :
    ServiceEnvelope M × OutgoingSeq :=
  out.wrapServicePaginated message traceContext none

end OutgoingSeq

structure SeqError where
  expected : Nat
  received : Nat

def SeqError.toString (e : SeqError) : String :=
  s!"sequence error: expected {e.expected}, received {e.received}"

structure IncomingSeq where
  expected : Nat

namespace IncomingSeq

def new : IncomingSeq := ⟨1⟩

def validate (inSeq : IncomingSeq) (received : Nat) : Except SeqError IncomingSeq :=
  if received ≠ inSeq.expected then .error ⟨inSeq.expected, received⟩
  else .ok ⟨inSeq.expected + 1⟩

end IncomingSeq

/-! ## Reading a text frame -/

structure EnvelopeHeader where
  protocolVersion : Nat
  seq : Nat

/-- JSON: the texts of envelopes, and what is read from a text.  An error is its
description. -/
structure EnvelopeCodec (M T : Type*) where
  toText : ServiceEnvelope M → Option T
  header : T → Except String EnvelopeHeader
  envelope : T → Except String (ServiceEnvelope M)
  header_toText : ∀ e text, toText e = some text →
    header text = .ok ⟨e.protocolVersion, e.seq⟩

/-- The size checks of messages and of pagination data, `none` if they pass. -/
structure WireValidate (M : Type*) where
  message : M → Option String
  pagination : ReportPagination → Option String

inductive ServiceWsError
  | deserialize (text : String)
  | protocolVersionMismatch (expected received : Nat)
  | sequenceValidation (text : String)
  deriving DecidableEq

structure DeserializedMessage (M : Type*) where
  message : M
  pagination : Option ReportPagination
  deriving DecidableEq

section Deserialize

variable {M T : Type*} (codec : EnvelopeCodec M T) (wire : WireValidate M)

/-- Steps 4 to 6 of `deserialize_service_msg`: the message itself. -/
def parseServiceMsg (text : T) : Except ServiceWsError (Option (DeserializedMessage M)) :=
  match codec.envelope text with
  | .error _ => .ok none
  | .ok envelope =>
    match wire.message envelope.message, envelope.pagination.bind wire.pagination with
    | some e, _ => .error (.deserialize e)
    | none, some e => .error (.deserialize e)
    | none, none => .ok (some ⟨envelope.message, envelope.pagination⟩)

/-- The controller reads a text frame.  The number is validated before the message is
parsed. -/
def deserializeServiceMsg (inSeq : IncomingSeq) (text : T) :
    Except ServiceWsError (Option (DeserializedMessage M)) × IncomingSeq :=
  match codec.header text with
  | .error e => (.error (.deserialize s!"invalid message: {e}"), inSeq)
  | .ok header =>
    if header.protocolVersion ≠ currentProtocolVersion then
      (.error (.protocolVersionMismatch currentProtocolVersion header.protocolVersion), inSeq)
    else
      match inSeq.validate header.seq with
      | .error e => (.error (.sequenceValidation e.toString), inSeq)
      | .ok inSeq => (parseServiceMsg codec wire text, inSeq)

def deserializeAll (inSeq : IncomingSeq) :
    List T → List (Except ServiceWsError (Option (DeserializedMessage M)))
  | [] => []
  | text :: texts =>
    let read := deserializeServiceMsg codec wire inSeq text
    read.1 :: deserializeAll read.2 texts

variable {codec wire}

variable (codec) in
/-- The texts are numbered from `n` on. -/
def Numbered : Nat → List T → Prop
  | _, [] => True
  | n, text :: texts =>
    codec.header text = .ok ⟨currentProtocolVersion, n⟩ ∧ Numbered (n + 1) texts

variable {n : Nat} {texts : List T}

theorem numbered_append {texts' : List T} :
    Numbered codec n (texts ++ texts') ↔
      Numbered codec n texts ∧ Numbered codec (n + texts.length) texts' := by
  induction texts generalizing n with
  | nil => simp [Numbered]
  | cons _ texts ih =>
    rw [cons_append, Numbered, Numbered, ih, length_cons, and_assoc]
    rw [show n + 1 + texts.length = n + (texts.length + 1) by omega]

variable (h : Numbered codec n texts)

include h

theorem Numbered.concat {out : OutgoingSeq} (hn : out.next = n + texts.length) {message : M}
    {traceContext pagination} {json : T}
    (hj : codec.toText (out.wrapServicePaginated message traceContext pagination).1 =
      some json) : Numbered codec n (texts ++ [json]) := by
  refine numbered_append.2 ⟨h, ?_, trivial⟩
  rw [codec.header_toText _ _ hj, ← hn]
  rfl

theorem Numbered.getElem? {i} {text : T} (ht : texts[i]? = some text) :
    codec.header text = .ok ⟨currentProtocolVersion, n + i⟩ := by
  induction texts generalizing n i with
  | nil => cases ht
  | cons head _ ih =>
    cases i with
    | zero =>
      obtain rfl : head = text := Option.some.inj ht
      exact h.1
    | succ =>
      rw [ih h.2 ht]
      congr 2
      omega

/-- A reader that expects the first of the numbers rejects no text for its number. -/
theorem Numbered.deserializeAll (e) :
    .error (.sequenceValidation e) ∉ deserializeAll codec wire ⟨n⟩ texts := by
  induction texts generalizing n with
  | nil => exact not_mem_nil
  | cons text _ ih =>
    have hr : deserializeServiceMsg codec wire ⟨n⟩ text =
        (parseServiceMsg codec wire text, ⟨n + 1⟩) := by
      simp [deserializeServiceMsg, h.1, IncomingSeq.validate]
    rw [Wire.deserializeAll, hr]
    intro hm
    rcases mem_cons.1 hm with hh | ht
    · unfold parseServiceMsg at hh
      split at hh
      · cases hh
      · split at hh <;> cases hh
    · exact ih h.2 ht

end Deserialize

end Uptrakit.Wire
