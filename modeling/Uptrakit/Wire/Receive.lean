import Uptrakit.Wire.Envelope

/-!
# Receiving from the controller

`ControllerConnection::recv` (`crates/shared/service-sdk/src/connection.rs`) asks for frames until
one of them gives a result.  That the connection has ended is told by `Ok(None)`, and a message that
cannot be read gives the same result.  So the two are told apart exactly if every message before
the end can be read (`results_eq_iff`).
-/

namespace Uptrakit.Wire

/-- A frame of the WebSocket.  The reason of a close frame is the parsed one. -/
inductive Frame (T R : Type*)
  | text (payload : T)
  | binary (payload : T)
  | ping (data : List UInt8)
  | pong (data : List UInt8)
  | frame
  | close (reason : Option R)

inductive RecvAction (T R E : Type*)
  | message (payload : T)
  | closeFrame (reason : Option R)
  | peerClosed
  | streamEnd
  | control
  | transportError (e : E)

inductive EnrollmentError (E : Type*)
  | json (e : String)
  | webSocket (e : E)
  | versionMismatch (expected received : Nat)
  | enrollment (text : String)
  | sendTimeout

/-- What the stream answers when it is asked for the next frame, `none` at its end. -/
abbrev Answer (T R E : Type*) := Option (Except E (Frame T R))

/-- What is taken from JSON and from the WebSocket library: the header of a payload, its message,
and the errors that mean that the peer has closed the connection. -/
structure Reader (M T E : Type*) where
  header : T → Except String EnvelopeHeader
  message : T → Except String M
  isPeerClosed : E → Bool

/-- The part of a connection that `recv` reads and writes. -/
structure Receiver (R : Type*) where
  inSeq : IncomingSeq
  closeReason : Option R
  writeError : Bool

variable {M T R E : Type*} (reader : Reader M T E)

def classifyWsFrame : Answer T R E → RecvAction T R E
  | some (.ok (.text payload)) => .message payload
  | some (.ok (.binary payload)) => .message payload
  | some (.ok (.close reason)) => .closeFrame reason
  | some (.ok _) => .control
  | some (.error e) => if reader.isPeerClosed e then .peerClosed else .transportError e
  | none => .streamEnd

def validateHeader (inSeq : IncomingSeq) (header : EnvelopeHeader) :
    Except (EnrollmentError E) IncomingSeq :=
  if header.protocolVersion ≠ currentProtocolVersion then
    .error (.versionMismatch currentProtocolVersion header.protocolVersion)
  else
    match inSeq.validate header.seq with
    | .error e => .error (.enrollment s!"sequence validation failed: {e.toString}")
    | .ok inSeq => .ok inSeq

/-- `decode_text_message` and `decode_binary_message`. -/
def decodeMessage (inSeq : IncomingSeq) (payload : T) :
    Except (EnrollmentError E) (Option M) × IncomingSeq :=
  match reader.header payload with
  | .error e => (.error (.json e), inSeq)
  | .ok header =>
    match validateHeader inSeq header with
    | .error e => (.error e, inSeq)
    | .ok inSeq =>
      match reader.message payload with
      | .error _ => (.ok none, inSeq)
      | .ok message => (.ok (some message), inSeq)

/-- The result of `recv` and the answers of the stream that are left, or `none` as long as it waits
for the next answer.  Pings are answered by `ControllerConnection.trySend`. -/
def recv (r : Receiver R) (answers : List (Answer T R E)) :
    Option (Except (EnrollmentError E) (Option M) × Receiver R × List (Answer T R E)) :=
  if r.writeError then some (.error .sendTimeout, r, answers)
  else
    match answers with
    | [] => none
    | answer :: answers =>
      match classifyWsFrame reader answer with
      | .message payload =>
        let decoded := decodeMessage reader r.inSeq payload
        some (decoded.1, { r with inSeq := decoded.2 }, answers)
      | .control => recv r answers
      | .closeFrame reason => some (.ok none, { r with closeReason := reason }, answers)
      | .peerClosed | .streamEnd => some (.ok none, r, answers)
      | .transportError e => some (.error (.webSocket e), r, answers)

/-- The results of `recv`, each with the answers that were left, until it returns `Ok(None)` or
waits.  It is called `n` times at most. -/
def results : Nat → Receiver R → List (Answer T R E) →
    List (Except (EnrollmentError E) (Option M) × List (Answer T R E))
  | 0, _, _ => []
  | n + 1, r, answers =>
    match recv reader r answers with
    | none => []
    | some (.ok none, _, rest) => [(.ok none, rest)]
    | some (result, r, rest) => (result, rest) :: results n r rest

/-- The results if messages that cannot be read were skipped: `Ok(None)` at the end only. -/
def skipping : List (Answer T R E) →
    List (Except (EnrollmentError E) (Option M) × List (Answer T R E))
  | [] => []
  | answer :: answers =>
    match classifyWsFrame reader answer with
    | .message payload =>
      match reader.message payload with
      | .error _ => skipping answers
      | .ok message => (.ok (some message), answers) :: skipping answers
    | .control => skipping answers
    | .closeFrame _ | .peerClosed | .streamEnd => [(.ok none, answers)]
    | .transportError e => (.error (.webSocket e), answers) :: skipping answers

def payloads : List (Answer T R E) → List T
  | [] => []
  | answer :: answers =>
    match classifyWsFrame reader answer with
    | .message payload => payload :: payloads answers
    | .control | .transportError _ => payloads answers
    | .closeFrame _ | .peerClosed | .streamEnd => []

variable {reader} {r : Receiver R} {answers : List (Answer T R E)}

theorem length_of_mem_skipping {result} (h : result ∈ skipping reader answers) :
    result.2.length < answers.length := by
  fun_induction skipping reader answers with
  | case1 => cases h
  | case2 _ _ _ _ _ _ ih | case4 _ _ _ ih => exact (ih h).trans (Nat.lt_succ_self _)
  | case3 _ _ _ _ _ _ ih | case8 _ _ _ _ ih =>
    rcases List.mem_cons.1 h with rfl | h
    · exact Nat.lt_succ_self _
    · exact (ih h).trans (Nat.lt_succ_self _)
  | case5 | case6 | case7 =>
    cases List.mem_singleton.1 h
    exact Nat.lt_succ_self _

theorem decodeMessage_expected {inSeq : IncomingSeq} {payload : T}
    (h : reader.header payload = .ok ⟨currentProtocolVersion, inSeq.expected⟩) :
    decodeMessage reader inSeq payload =
      (.ok (reader.message payload).toOption, ⟨inSeq.expected + 1⟩) := by
  cases hm : reader.message payload <;>
    simp [decodeMessage, h, hm, validateHeader, IncomingSeq.validate, Except.toOption]

/-- If every message before the end has the expected header and the writer has not failed, then
`recv` returns the readable messages and the end, as if it skipped the others, exactly if there are
no others. -/
theorem results_eq_iff (ho : r.writeError = false)
    (hh : ∀ i payload, (payloads reader answers)[i]? = some payload →
      reader.header payload = .ok ⟨currentProtocolVersion, r.inSeq.expected + i⟩)
    {n} (hn : answers.length < n) :
    results reader n r answers = skipping reader answers ↔
      ∀ payload ∈ payloads reader answers, ∃ message, reader.message payload = .ok message := by
  induction answers generalizing n r with
  | nil => cases n <;> simp [results, recv, ho, skipping, payloads]
  | cons answer answers ih =>
    obtain _ | n := n
    · cases hn
    have hn' : answers.length < n := Nat.lt_of_succ_lt_succ hn
    obtain ⟨inSeq, closeReason, _⟩ := r
    cases ho
    unfold payloads at hh
    unfold results recv skipping payloads
    cases ha : classifyWsFrame reader answer with
    | message payload =>
      simp only [ha] at hh
      have hr := @decodeMessage_expected M T E reader inSeq payload (hh 0 payload rfl)
      simp only [ha, hr]
      cases hm : reader.message payload with
      | ok message =>
        have hre := ih (r := ⟨⟨inSeq.expected + 1⟩, closeReason, false⟩) rfl ?_ hn'
        · simpa [Except.toOption, hm] using hre
        · intro i payload' hp
          rw [hh (i + 1) payload' hp, Nat.add_right_comm]
          rfl
      | error e =>
        constructor
        · intro (h : [(.ok none, answers)] = skipping reader answers)
          have hme := length_of_mem_skipping (h ▸ List.mem_singleton_self _)
          exact absurd hme (Nat.lt_irrefl _)
        · intro h
          obtain ⟨_, hok⟩ := h payload (.head _)
          cases hm.symm.trans hok
    | control =>
      simp only [ha] at hh ⊢
      exact ih rfl hh (Nat.lt_succ_of_lt hn')
    | transportError e =>
      simp only [ha] at hh ⊢
      simpa using ih rfl hh hn'
    | closeFrame | peerClosed | streamEnd =>
      simp only [ha]
      exact iff_of_true rfl nofun

/-! ## A message without its field -/

/-- The JSON of an envelope, as far as a `ca_bundle_updated` message needs it. -/
structure BundleJson where
  seq : Nat
  type : String
  caBundlePem : Option String

/-- Messages of other types are read as `ControllerMessage::Unknown`. -/
inductive BundleMessage
  | caBundleUpdated (caBundlePem : String)
  | unknown

def bundleReader : Reader BundleMessage BundleJson Unit where
  header json := .ok ⟨1, json.seq⟩
  message json :=
    if json.type = "ca_bundle_updated" then
      match json.caBundlePem with
      | some pem => .ok (.caBundleUpdated pem)
      | none => .error "missing field ca_bundle_pem"
    else .ok .unknown
  isPeerClosed _ := false

def connected : Receiver Unit := ⟨.new, none, false⟩

/-- The message without its field is taken for the end; the next one is left in the stream. -/
theorem unreadable_ends :
    let next := some (.ok (.text ⟨2, "ca_bundle_updated", some "new CA"⟩))
    let answers := [some (.ok (.text ⟨1, "ca_bundle_updated", none⟩)), next]
    results bundleReader 3 connected answers = [(.ok none, [next])] ∧
      skipping bundleReader answers = [(.ok (some (.caBundleUpdated "new CA")), [])] :=
  ⟨rfl, rfl⟩

/-- A message of an unknown type is read. -/
theorem results_eq_of_readable :
    let answers := [some (.ok (.ping [])), some (.ok (.text ⟨1, "hello", none⟩)),
      some (.ok (.binary ⟨2, "ca_bundle_updated", some "new CA"⟩)), none]
    results bundleReader 5 connected answers = skipping bundleReader answers := by
  refine (results_eq_iff rfl ?_ (by decide)).2 ?_
  · intro i payload h
    match i with
    | 0 | 1 => cases h; rfl
  · rintro payload (_ | ⟨_, _ | ⟨_, ⟨⟩⟩⟩)
    · exact ⟨_, rfl⟩
    · exact ⟨_, rfl⟩

end Uptrakit.Wire
