import Ohmcp.Live
import Ohmcp.KeyAgreement

/-! One `connect_shm` against one session. Bytes that carry descriptors lie between framed bytes in
one stream, and the client takes them past its frame reader, while resources change and the session
may push a notification whenever it waits. -/

open Transition

namespace Ohmcp

variable [Externals]

namespace Negotiation

/-! ### The stream to the client -/

omit [Externals] in
structure Cell where
  byte : UInt8
  descriptor : Bool
  deriving DecidableEq

omit [Externals] in
def plain (byte : UInt8) : Cell := ⟨byte, false⟩

omit [Externals] in
/-- A frame is bytes. A byte sent past the writer carries a descriptor, but for the byte that
declines. -/
def itemCells : Live.Item → List Cell
  | .frame frame => frame.encode.map plain
  | .raw byte => [⟨byte, byte != 0⟩]

omit [Externals] in
def cells (items : List Live.Item) : List Cell := items.flatMap itemCells

omit [Externals] in
/-- The positions of the descriptors, counted from a given one. -/
def descriptors : Nat → List Cell → List Nat
  | _, [] => []
  | n, cell :: cells =>
      if cell.descriptor then n :: descriptors (n + 1) cells else descriptors (n + 1) cells

omit [Externals] in
structure Connector where
  agentId : String
  token : Option Bytes
  nonce : Bytes
  eph : EphemeralKeyPair
  noncePrefix : Bytes
  noncePrefix_length : noncePrefix.length = 4

omit [Externals] in
/-- What `connect_inner` waits for. -/
inductive Phase where
  | authReply (token : Bytes)
  | downFd
  | upFd
  | setupReply
  | initializeReply
  | done
  | failed (e : ConnectError)
  deriving DecidableEq

omit [Externals] in
/-- Whether the next bytes go through the frame reader. -/
def Phase.framed : Phase → Bool
  | authReply _ | setupReply | initializeReply => true
  | _ => false

omit [Externals] in
/-- The local variables of `connect_inner`, with the positions of the bytes that
`recv_fd_blocking` took and the frame that was taken for the reply to `ShmSetup`. The rings are by
their capacities: the memory is the server's. -/
structure Client where
  phase : Phase
  pipeline : PayloadPipeline
  down : Bool
  up : Bool
  shm : Option Nat
  shmUp : Option Nat
  fds : List Nat
  setup : Option Frame

/-- The session, the bytes on their way to it, the client's buffer, and how much of the stream the
client has taken. -/
structure State where
  server : Live.State
  uplink : Bytes
  buf : Bytes
  taken : Nat
  client : Client

namespace State

omit [Externals] in
def unread (s : State) : List Cell := (cells s.server.wire).drop s.taken

/-- The first frame is sent at once. -/
def start (connector : Connector) (shared : Shared) (past pending : List ResourceEvent) : State where
  server := .start shared past pending
  uplink :=
    match connector.token with
    | some token =>
        (authFrame (authParams connector.agentId token connector.nonce connector.eph)).encode
    | none => shmSetupFrame.encode
  buf := []
  taken := 0
  client :=
    ⟨match connector.token with
      | some token => .authReply token
      | none => .downFd, .new, false, false, none, none, [], none⟩

omit [Externals] in
def fail (s : State) (e : ConnectError) : State :=
  { s with client := { s.client with phase := .failed e } }

omit [Externals] in
/-- `recv_fd_blocking` takes a byte. Without a descriptor for the downlink none is awaited for the
uplink. -/
def receiveFd (s : State) (cell : Cell) : State :=
  let s := { s with
    taken := s.taken + 1
    client := { s.client with fds := s.client.fds ++ [s.taken] } }
  match recvFd cell.byte cell.descriptor with
  | .error e => s.fail e
  | .ok received =>
      if s.client.phase = .downFd then
        { s with client := { s.client with
            down := received
            phase := if received then .upFd else .setupReply } }
      else { s with client := { s.client with up := received, phase := .setupReply } }

/-- The `Initialize` request, by way of the uplink ring where it is large. -/
def sendInitialize (s : State) (connector : Connector) : State :=
  let ring := s.client.shmUp.bind fun _ => s.server.session.shmUp
  let (frame, pipeline, ring) := requestFrame s.client.pipeline ring .initializeRequest 1
    (Externals.toVec .initializeParams (initializeParams connector.agentId))
  let shmUp := if s.client.shmUp.isSome then ring else s.server.session.shmUp
  { s with
    server := { s.server with session := { s.server.session with shmUp := shmUp } }
    uplink := s.uplink ++ frame.encode
    client := { s.client with pipeline := pipeline, phase := .initializeReply } }

omit [Externals] in
def noCallbacks : Callbacks := ⟨∅, false, false⟩

/-- The reading loop of the `Initialize` request: notifications and other ids are passed over. -/
def readInitialize (s : State) (moment : Moment) (frame : Frame) : State :=
  let (resolved, ring) := resolveShm (s.client.shm.bind fun _ => s.server.session.shm) frame
  let shm := if s.client.shm.isSome then ring else s.server.session.shm
  let s := { s with server := { s.server with session := { s.server.session with shm := shm } } }
  match resolved with
  | .error e => s.fail (.text e)
  | .ok frame =>
      match route noCallbacks s.client.pipeline moment.now frame with
      | (.notification _, pipeline) => { s with client := { s.client with pipeline := pipeline } }
      | (.response response, pipeline) =>
          if response.header.requestId = 1 then
            match finishInitialize pipeline moment response with
            | (.error e, pipeline) => { s with client := { s.client with
                pipeline := pipeline
                phase := .failed e } }
            | (.ok _, pipeline) => { s with client := { s.client with
                pipeline := pipeline
                phase := .done } }
          else { s with client := { s.client with pipeline := pipeline } }

def accept (s : State) (connector : Connector) (moment : Moment) (frame : Frame) : State :=
  match s.client.phase with
  | .authReply token =>
      match authenticate s.client.pipeline connector.eph token (utf8 (hex connector.nonce))
          connector.noncePrefix connector.noncePrefix_length frame with
      | .error e => s.fail e
      | .ok pipeline => { s with
          uplink := s.uplink ++ shmSetupFrame.encode
          client := { s.client with pipeline := pipeline, phase := .downFd } }
  | .setupReply =>
      match setupRings s.client.pipeline moment.now frame s.client.down s.client.up with
      | (.error e, _) => s.fail e
      | (.ok (shm, shmUp), pipeline) =>
          let s := { s with client := { s.client with
            pipeline := pipeline
            shm := shm
            shmUp := shmUp
            setup := some frame } }
          s.sendInitialize connector
  | .initializeReply => s.readInitialize moment frame
  | _ => s

end State

/-- The session handles a frame or does something else; the client's frame reader gets one byte more
than `len` at most in a read, and the client takes frames out of its buffer. -/
inductive Op where
  | handle (env : Environment)
  | server (op : Live.Op)
  | read (len : Nat)
  | receiveFd
  | take (moment : Moment)

def step (connector : Connector) (s : State) : Op → Option State
  | .handle env =>
      match Frame.decode s.uplink with
      | (.ok (some frame), rest) => (Live.step s.server (.frame env frame)).map fun server =>
          { s with server := server, uplink := rest }
      | _ => none
  | .server (.frame _ _) => none
  | .server op => (Live.step s.server op).map fun server => { s with server := server }
  | .read len =>
      if s.client.phase.framed ∧ (Frame.decode s.buf).1 = .ok none ∧ s.unread ≠ [] then
        let chunk := s.unread.take (len + 1)
        some { s with buf := s.buf ++ chunk.map Cell.byte, taken := s.taken + chunk.length }
      else none
  | .receiveFd =>
      match s.unread with
      | cell :: _ =>
          if s.client.phase = .downFd ∨ s.client.phase = .upFd then some (s.receiveFd cell) else none
      | [] => none
  | .take moment =>
      if s.client.phase.framed then
        match Frame.decode s.buf with
        | (.ok (some frame), rest) => some ({ s with buf := rest }.accept connector moment frame)
        | (.ok none, _) => none
        | (.error e, _) => some (s.fail (.core e))
      else none

/-! ### What the runs are about -/

omit [Externals] in
/-- The server makes its rings and passes their descriptors, and is not stopped. -/
def succeeds : Op → Bool
  | .handle env =>
      env.dupMade && env.ringMade && env.upRingMade && env.downFdSent && env.upFdSent
  | .server (.stop _) => false
  | _ => true

omit [Externals] in
/-- The session waits with a change of the resource list to tell of, and has not set up its rings. -/
def Premature (s : State) : Prop :=
  s.server.session.authenticated = true ∧ s.server.session.shm = none ∧
    ∃ index events, s.server.events.recv = (.message index .listChanged, events)

omit [Externals] in
/-- No notification is pushed before the rings are set up. -/
def Timely (s : State) : Op → Prop
  | .server .poll => ¬ Premature s
  | _ => True

omit [Externals] in
def Meets (s : State) (op : Op) : Prop := succeeds op = true ∧ Timely s op

/-- A text that is short enough for one frame, with the cipher's nonce and tag. -/
def Short (payload : Bytes) : Prop := payload.length + 28 ≤ maxFrameLen

/-- What the negotiation relies on: the payload layers undo each other, X25519 commutes, and
`serde_json` reads back the bodies of the handshake, which are short. -/
structure Negotiable (connector : Connector) : Prop where
  lossless : Externals.Lossless
  keyExchange : ∀ token, connector.token = some token → ∀ server,
    Externals.KeyExchange connector.eph server
      (authParams connector.agentId token connector.nonce connector.eph)
  parse_setup : Externals.fromSlice .value (Externals.toVec .value (shmSetupResult true)) =
    some (shmSetupResult true)
  parse_initializeResult : Externals.fromSlice .initializeResult
    (Externals.toVec .initializeResult initializeResult) = some initializeResult
  short_auth : ∀ token, connector.token = some token → Short (Externals.toVec .authParams
    (authParams connector.agentId token connector.nonce connector.eph))
  short_authResult : ∀ eph, Short (Externals.toVec .authResult (authResult true eph))
  short_setup : Short (Externals.toVec .value (shmSetupResult true))
  short_params : Short (Externals.toVec .initializeParams (initializeParams connector.agentId))
  short_initializeResult : Short (Externals.toVec .initializeResult initializeResult)

/-- Both ends agree about the rings. -/
structure Mapped (client : Client) (session : Session) : Prop where
  shm_eq : client.shm = session.shm.map ShmRing.cap
  shmUp_eq : client.shmUp = session.shmUp.map ShmRing.cap
  fds_length : client.fds.length = 2
  setup : ∃ reply, client.setup = some reply ∧ reply.header.msgType = .shmSetupResult

/-- What both ends can rely on in the course of one `connect_shm`. -/
structure Agrees (s : State) : Prop where
  alive : ∀ e, s.client.phase ≠ .failed e
  flow : s.server.flow = .next
  /-- `recv_fd_blocking` has only taken bytes that carry descriptors, in their order. -/
  fds : s.client.fds <+: descriptors 0 (cells s.server.wire)
  setup : ∀ reply, s.client.setup = some reply →
    reply.header.msgType = .shmSetupResult ∧ reply ∈ s.server.frames
  /-- No reference goes to an end without the ring. -/
  downlink : ∀ frame ∈ s.server.frames, frame.header.flags.shmRef = false
  uplink : ∀ frame rest, Frame.decode s.uplink = (.ok (some frame), rest) →
    frame.header.flags.shmRef = true → s.server.session.shmUp ≠ none
  connected : s.client.phase = .done → Mapped s.client s.server.session ∧
    s.client.fds = descriptors 0 (cells s.server.wire)
  /-- Nor does either end make one later that the other has no ring for. -/
  later : s.client.phase = .done → ∀ pipeline msgType id payload,
    ((wrapMaybeShm pipeline s.server.session.shm id payload).1.header.flags.shmRef = true →
      s.client.shm ≠ none) ∧
    ((requestFrame pipeline (s.client.shmUp.bind fun _ => s.server.session.shmUp) msgType id
      payload).1.header.flags.shmRef = true → s.server.session.shmUp ≠ none)

/-! ### The stream -/

section Stream

omit [Externals] in
@[simp] theorem cells_append (items items' : List Live.Item) :
    cells (items ++ items') = cells items ++ cells items' := List.flatMap_append

omit [Externals] in
theorem cells_map_frame (frames : List Frame) :
    cells (frames.map .frame) = (Frame.encodeAll frames).map plain := by
  induction frames with
  | nil => rfl
  | cons frame frames ih =>
      rw [Frame.encodeAll_cons, List.map_append, ← ih]
      rfl

omit [Externals] in
theorem plain_injective : Function.Injective plain := fun _ _ h => congrArg Cell.byte h

omit [Externals] in
/-- What follows the buffer in a stream of frames is bytes without descriptors. -/
theorem exists_of_map_plain {buf bytes : Bytes} {more : List Cell}
    (h : buf.map plain ++ more = bytes.map plain) :
    ∃ rest, more = rest.map plain ∧ bytes = buf ++ rest := by
  obtain ⟨front, rest, hbytes, hfront, hrest⟩ := List.map_eq_append_iff.mp h.symm
  rw [plain_injective.list_map hfront] at hbytes
  exact ⟨rest, hrest.symm, hbytes⟩

omit [Externals] in
@[simp] theorem map_byte_plain (bytes : Bytes) : (bytes.map plain).map Cell.byte = bytes := by
  rw [List.map_map]
  exact List.map_id bytes

omit [Externals] in
theorem descriptors_append (n : Nat) (front rest : List Cell) :
    descriptors n (front ++ rest) = descriptors n front ++ descriptors (n + front.length) rest := by
  induction front generalizing n with
  | nil => rfl
  | cons cell front ih =>
      have hnext : n + 1 + front.length = n + (front.length + 1) := by omega
      rw [List.cons_append, descriptors, descriptors, ih, List.length_cons, hnext]
      split_ifs <;> rfl

omit [Externals] in
theorem descriptors_plain (n : Nat) (bytes : Bytes) : descriptors n (bytes.map plain) = [] := by
  induction bytes generalizing n with
  | nil => rfl
  | cons byte bytes ih => exact ih (n + 1)

end Stream

/-! ### The invariant of the stream -/

omit [Externals] in
/-- Everything written and everything queued behind it. -/
def State.outgoing (s : State) : List Live.Item := s.server.wire ++ s.server.queued.map .frame

omit [Externals] in
/-- The client has yet to take these items, apart from what its buffer holds of them. -/
structure Link (s : State) (rest : List Live.Item) : Prop where
  flow : s.server.flow = .next
  taken_le : s.taken ≤ (cells s.server.wire).length
  ahead : s.buf.map plain ++ (cells s.outgoing).drop s.taken = cells rest
  suffix : rest <:+ s.outgoing
  /-- Nothing of what `recv_fd_blocking` is to take is in the buffer. -/
  raw : s.client.phase = .downFd ∨ s.client.phase = .upFd → s.buf = []
  fds_eq : s.client.fds ++ descriptors s.taken ((cells s.outgoing).drop s.taken) =
    descriptors 0 (cells s.outgoing)
  sendable : ∀ frame, .frame frame ∈ s.outgoing →
    frame.WellFormed ∧ frame.header.flags.shmRef = false
  drained : s.server.waiting = true → s.server.queued = []

section Link

variable {s t : State} {rest : List Live.Item}

omit [Externals] in
theorem Link.outgoing_drop (h : Link s rest) :
    (cells s.outgoing).drop s.taken = s.unread ++ cells (s.server.queued.map .frame) := by
  rw [State.outgoing, cells_append, List.drop_append_of_le_length h.taken_le, State.unread]

omit [Externals] in
/-- The server appends to the stream. -/
theorem Link.extend (h : Link s rest) {items : List Live.Item} (htaken : t.taken = s.taken)
    (hbuf : t.buf = s.buf) (hclient : t.client = s.client) (hflow : t.server.flow = .next)
    (hwire : s.server.wire <+: t.server.wire) (hout : t.outgoing = s.outgoing ++ items)
    (hitems : ∀ frame, .frame frame ∈ items →
      frame.WellFormed ∧ frame.header.flags.shmRef = false)
    (hdrained : t.server.waiting = true → t.server.queued = []) : Link t (rest ++ items) := by
  have hle : s.taken ≤ (cells s.outgoing).length := by
    rw [State.outgoing, cells_append, List.length_append]
    exact h.taken_le.trans (Nat.le_add_right _ _)
  have hdrop : (cells t.outgoing).drop s.taken =
      (cells s.outgoing).drop s.taken ++ cells items := by
    rw [hout, cells_append, List.drop_append_of_le_length hle]
  refine ⟨hflow, ?_, ?_, ?_, ?_, ?_, ?_, hdrained⟩
  · obtain ⟨more, hmore⟩ := hwire
    rw [htaken, ← hmore, cells_append, List.length_append]
    exact h.taken_le.trans (Nat.le_add_right _ _)
  · rw [hbuf, htaken, hdrop, ← List.append_assoc, h.ahead, cells_append]
  · obtain ⟨past, hpast⟩ := h.suffix
    exact ⟨past, by rw [hout, ← hpast, List.append_assoc]⟩
  · rw [hclient, hbuf]
    exact h.raw
  · have hlen : s.taken + ((cells s.outgoing).drop s.taken).length =
        0 + (cells s.outgoing).length := by
      rw [List.length_drop]
      omega
    rw [hclient, htaken, hdrop, descriptors_append, ← List.append_assoc, h.fds_eq, hlen, hout,
      cells_append, descriptors_append]
  · intro frame hframe
    rw [hout] at hframe
    exact (List.mem_append.mp hframe).elim (h.sendable frame) (hitems frame)

omit [Externals] in
/-- A step that leaves the stream alone. -/
theorem Link.of_same (h : Link s rest) (htaken : t.taken = s.taken) (hbuf : t.buf = s.buf)
    (hfds : t.client.fds = s.client.fds) (hflow : t.server.flow = .next)
    (hwire : t.server.wire = s.server.wire) (hqueued : t.server.queued = s.server.queued)
    (hwaiting : t.server.waiting = s.server.waiting)
    (hraw : t.client.phase = .downFd ∨ t.client.phase = .upFd → t.buf = []) : Link t rest := by
  have hout : t.outgoing = s.outgoing := by rw [State.outgoing, hwire, hqueued, State.outgoing]
  refine ⟨hflow, ?_, ?_, ?_, hraw, ?_, ?_, ?_⟩
  · rw [htaken, hwire]
    exact h.taken_le
  · rw [hbuf, htaken, hout]
    exact h.ahead
  · rw [hout]
    exact h.suffix
  · rw [hfds, htaken, hout]
    exact h.fds_eq
  · rw [hout]
    exact h.sendable
  · rw [hwaiting, hqueued]
    exact h.drained

omit [Externals] in
/-- The frame reader reads some of a stream that consists of frames. -/
theorem Link.read (h : Link s rest) {frames : List Frame} (hrest : rest = frames.map .frame)
    (hframed : s.client.phase.framed = true) (len : Nat) :
    Link { s with
      buf := s.buf ++ (s.unread.take (len + 1)).map Cell.byte
      taken := s.taken + (s.unread.take (len + 1)).length } rest := by
  have hahead := h.ahead
  rw [hrest, cells_map_frame, h.outgoing_drop] at hahead
  obtain ⟨bytes, hbytes, _⟩ := exists_of_map_plain hahead
  have hchunk : ((s.unread.take (len + 1)).map Cell.byte).map plain = s.unread.take (len + 1) := by
    rw [← List.take_append_drop (len + 1) s.unread, List.append_assoc] at hbytes
    obtain ⟨front, _, _, hfront, _⟩ := List.map_eq_append_iff.mp hbytes.symm
    rw [← hfront, map_byte_plain]
  have hlen : (s.unread.take (len + 1)).length ≤ s.unread.length := by
    rw [List.length_take]
    exact Nat.min_le_right _ _
  have hunread : s.unread.length = (cells s.server.wire).length - s.taken := List.length_drop
  have hsplit : s.unread.take (len + 1) ++
      (cells s.outgoing).drop (s.taken + (s.unread.take (len + 1)).length) =
        (cells s.outgoing).drop s.taken := by
    rw [← List.drop_drop, h.outgoing_drop]
    conv_rhs => rw [← List.take_append_drop (len + 1) s.unread, List.append_assoc]
    congr 1
    rw [List.drop_append_of_le_length hlen, List.length_take]
    congr 1
    by_cases hshort : len + 1 ≤ s.unread.length
    · rw [Nat.min_eq_left hshort]
    · rw [Nat.min_eq_right (by omega), List.drop_length, List.drop_of_length_le (by omega)]
  refine ⟨h.flow, ?_, ?_, h.suffix, ?_, ?_, h.sendable, h.drained⟩
  · change s.taken + (s.unread.take (len + 1)).length ≤ (cells s.server.wire).length
    have hle := h.taken_le
    omega
  · change (s.buf ++ _).map plain ++ (cells s.outgoing).drop _ = _
    rw [List.map_append, hchunk, List.append_assoc, hsplit]
    exact h.ahead
  · intro hphase
    rcases hphase with hphase | hphase
    · rw [show s.client.phase = _ from hphase] at hframed
      cases hframed
    · rw [show s.client.phase = _ from hphase] at hframed
      cases hframed
  · have hfds := h.fds_eq
    rw [← hsplit, descriptors_append, ← hchunk, descriptors_plain, List.nil_append,
      List.length_map, List.length_map] at hfds
    exact hfds

omit [Externals] in
/-- The buffer of the frame reader holds a complete frame, or only the beginning of one. -/
theorem Link.buffered (h : Link s rest) {frames : List Frame} (hrest : rest = frames.map .frame) :
    (∃ frame later buf, frames = frame :: later ∧
        Frame.decode s.buf = (.ok (some frame), buf) ∧
        buf.map plain ++ (cells s.outgoing).drop s.taken = cells (later.map .frame)) ∨
      Frame.decode s.buf = (.ok none, s.buf) ∧
        (frames ≠ [] → (cells s.outgoing).drop s.taken ≠ []) := by
  have hahead := h.ahead
  rw [hrest, cells_map_frame] at hahead
  obtain ⟨more, hmore, hbytes⟩ := exists_of_map_plain hahead
  have hwf : ∀ frame ∈ frames, frame.WellFormed := by
    intro frame hframe
    have hmem : .frame frame ∈ rest := by
      rw [hrest]
      exact List.mem_map_of_mem hframe
    exact (h.sendable frame (h.suffix.subset hmem)).1
  rw [← List.append_nil (Frame.encodeAll frames)] at hbytes
  obtain ⟨first, later, begun, hframes, hbuf, hlater, hbegun⟩ :=
    Frame.exists_split_of_append hwf Frame.incomplete_nil hbytes.symm
  rw [List.append_nil] at hlater
  cases first with
  | nil =>
      rw [Frame.encodeAll_nil, List.nil_append] at hbuf
      rw [List.nil_append] at hframes
      refine .inr ⟨?_, ?_⟩
      · rw [hbuf]
        exact hbegun.decode_eq
      · intro hne hnil
        rw [hmore, List.map_eq_nil_iff] at hnil
        rw [hnil, List.append_nil, ← hframes] at hlater
        obtain ⟨frame, frames, rfl⟩ := List.exists_cons_of_ne_nil hne
        exact hbegun.ne_encode_append (hwf frame List.mem_cons_self) _ hlater
  | cons frame first =>
      rw [Frame.encodeAll_cons, List.append_assoc] at hbuf
      refine .inl ⟨frame, first ++ later, Frame.encodeAll first ++ begun, hframes, ?_, ?_⟩
      · rw [hbuf, Frame.decode_encode_append
          (hwf frame (by rw [hframes]; exact List.mem_cons_self))]
      · rw [hmore, cells_map_frame, Frame.encodeAll_append, ← hlater, List.map_append,
          List.map_append, List.map_append, List.append_assoc]

omit [Externals] in
/-- One frame is taken out of the buffer. -/
theorem Link.take (h : Link s rest) {frame : Frame} {later : List Live.Item}
    (hrest : rest = .frame frame :: later) {buf : Bytes}
    (hbuf : buf.map plain ++ (cells s.outgoing).drop s.taken = cells later)
    (hframed : s.client.phase.framed = true) : Link { s with buf := buf } later := by
  refine ⟨h.flow, h.taken_le, hbuf, ?_, ?_, h.fds_eq, h.sendable, h.drained⟩
  · have hsuffix := h.suffix
    rw [hrest] at hsuffix
    exact (List.suffix_cons _ _).trans hsuffix
  · intro hphase
    rcases hphase with hphase | hphase
    · rw [show s.client.phase = _ from hphase] at hframed
      cases hframed
    · rw [show s.client.phase = _ from hphase] at hframed
      cases hframed

end Link

end Negotiation

end Ohmcp
