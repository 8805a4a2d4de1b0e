import Votport.Auth.Tokens
import Votport.Foundation.Fallible
import Votport.Foundation.Runs
import Votport.Trade.Credential

/-!
# Uploads in chunks

A file of the library comes in chunks.  Every upload has a stage, which its chunks are written to one
behind the other, and the stage that has all of its file is linked to the path.  A request that is
dropped leaves its last write in flight, and gives the lock back.  Whoever asks, in whatever order,
and wherever a request breaks off, a stage has the beginning of its file, if no such write is in
flight when the next request gets the lock.
-/

namespace Votport

/-! ### Requests -/

/-- What a chunk is answered with. -/
inductive ChunkAnswer
  | complete (offset bytes : ℕ)
  | stored (offset bytes : ℕ)
  | conflict (offset bytes : ℕ)
  | refused (status : ℕ) (message : String)
deriving DecidableEq

/-- The headers of a chunk. -/
structure ChunkHeaders where
  uploadId : Option (List Char)
  contentRange : Option (List Char)
  contentLength : Option (List Char)

/-- A range of a file and the length of all of it. -/
structure OutboundChunk where
  id : List Char
  start : ℕ
  last : ℕ
  total : ℕ
deriving DecidableEq

/-- The bytes of a chunk. -/
def OutboundChunk.len (chunk : OutboundChunk) : ℕ := chunk.last - chunk.start + 1

/-- `MAX_OUTBOUND_CHUNK_BYTES`. -/
def maxOutboundChunkBytes : ℕ := 16 * 1024 * 1024

/-- `parse_outbound_content_range`. -/
def parseOutboundContentRange (contentRange : Option (List Char)) :
    Except ChunkAnswer (ℕ × ℕ × ℕ) := do
  let invalid := ChunkAnswer.refused 422 "invalid Content-Range"
  let value ← Fallible.present contentRange (.refused 422 "Content-Range is required")
  let value ← Fallible.present (value.dropPrefix? "bytes ".toList) invalid
  let (range, total) ← Fallible.present (Fields.splitOnce '/' value) invalid
  let (start, last) ← Fallible.present (Fields.splitOnce '-' range) invalid
  let start ← Fallible.present (parseU64 start) invalid
  let last ← Fallible.present (parseU64 last) invalid
  let total ← Fallible.present (parseU64 total) invalid
  Fallible.require (start ≤ last ∧ total ≠ 0) invalid
  return (start.toNat, last.toNat, total.toNat)

/-- What `prepare_outbound_chunk` asks of a request. -/
def admitChunk (maxUploadBytes : ℕ) (headers : ChunkHeaders) :
    Except ChunkAnswer OutboundChunk := do
  let id ← Fallible.present (headers.uploadId.filter fun id => validHex (String.ofList id) 64)
    (.refused 422 "X-Votport-Upload-Id must be 64 hexadecimal characters")
  let (start, last, total) ← parseOutboundContentRange headers.contentRange
  Fallible.require (last - start + 1 < 2 ^ 64) (.refused 422 "invalid Content-Range")
  Fallible.require (last - start + 1 ≤ maxOutboundChunkBytes)
    (.refused 413 "outbound chunk exceeds 16 MiB")
  let declared ← Fallible.present ((headers.contentLength.bind parseU64).map UInt64.toNat)
    (.refused 400 "Content-Length must match the requested range")
  Fallible.require (declared = last - start + 1)
    (.refused 400 "Content-Length must match the requested range")
  Fallible.require (total ≤ maxUploadBytes) (.refused 413 "file exceeds upload limit")
  Fallible.require (last < total) (.refused 422 "Content-Range exceeds the declared file size")
  return ⟨id, start, last, total⟩

/-! ### Stages -/

/-- The request that has the lock of the path, and what it has received. -/
structure ChunkStage where
  chunk : OutboundChunk
  inode : ℕ
  received : ℕ

/-- Where the next byte is written. -/
def ChunkStage.position (stage : ChunkStage) : ℕ := stage.chunk.start + stage.received

/-- A write that a dropped request has left in flight: the upload, its stage, and what is written
where. -/
structure ChunkFlight where
  id : List Char
  inode : ℕ
  position : ℕ
  bytes : List UInt8
deriving DecidableEq

/-- A path of the library with the stages of its uploads, by the files that they name. -/
structure Shelf where
  data : ℕ → List UInt8
  stages : List Char → Option ℕ
  destination : Option ℕ
  fresh : ℕ
  active : Option ChunkStage
  flights : List ChunkFlight

/-- `File::set_len`. -/
def setLen (n : ℕ) (content : List UInt8) : List UInt8 :=
  content.take n ++ List.replicate (n - content.length) 0

/-- `write_all` at a position. -/
def writeAt (position : ℕ) (bytes content : List UInt8) : List UInt8 :=
  setLen position content ++ bytes ++ content.drop (position + bytes.length)

/-- What goes wrong at the end of a chunk.  Of what the request has written, only some bytes are in
the stage when the last write fails. -/
inductive FinishFault
  | write (kept : ℕ)
  | sync
  | expiry
  | link
deriving DecidableEq

/-- What happens at a path.  Where a write fails, or its request is dropped, only some bytes of those
that the request has written are in the stage; the others of a dropped request may land later, or
some of them. -/
inductive ShelfEvent
  | begin (headers : ChunkHeaders)
  | frame (bytes : List UInt8)
  | frameFails (bytes : List UInt8) (kept : ℕ) (cut : Bool)
  | bodyFails (cut : Bool)
  | finish (fault : Option FinishFault) (cut : Bool)
  | dropped (bytes : List UInt8) (kept : ℕ)
  | lands (i written : ℕ)
  | sweep (id : List Char)
  | delete
  | appears (bytes : List UInt8)

/-- An answer, and the chunk that it is the answer to. -/
structure ChunkReply where
  chunk : Option OutboundChunk
  answer : ChunkAnswer

namespace Shelf

variable (s : Shelf) (stage : ChunkStage)

/-- The stage of an upload is opened, or made. -/
def opened (id : List Char) : Shelf × ℕ :=
  match s.stages id with
  | some inode => (s, inode)
  | none =>
      ({ s with
          data := Function.update s.data s.fresh []
          stages := Function.update s.stages id (some s.fresh)
          fresh := s.fresh + 1 }, s.fresh)

/-- `prepare_outbound_chunk`, when the lock is there. -/
def prepare (chunk : OutboundChunk) : Shelf × Option ChunkReply :=
  match s.destination with
  | some inode =>
      if (s.data inode).length = chunk.total ∧ s.stages chunk.id = some inode then
        (s, some ⟨some chunk, .complete chunk.total chunk.total⟩)
      else (s, some ⟨some chunk, .refused 409 "outbound file already exists"⟩)
  | none =>
      let (s, inode) := s.opened chunk.id
      if (s.data inode).length < chunk.start then
        (s, some ⟨some chunk, .conflict (s.data inode).length chunk.total⟩)
      else
        ({ s with
            data := Function.update s.data inode (setLen chunk.start (s.data inode))
            active := some ⟨chunk, inode, 0⟩ }, none)

/-- The request ends with a refusal, and its stage is cut to where the chunk began. -/
def refuse (cut : Bool) (status : ℕ) (message : String) : Shelf × Option ChunkReply :=
  ({ s with
      data := if cut = true then
          Function.update s.data stage.inode (setLen stage.chunk.start (s.data stage.inode))
        else s.data
      active := none }, some ⟨some stage.chunk, .refused status message⟩)

/-- Bytes of the body are written. -/
def write (bytes : List UInt8) : Shelf :=
  { s with
    data := Function.update s.data stage.inode
      (writeAt stage.position bytes (s.data stage.inode)) }

/-- Of what the request has written, only so many bytes are in the stage. -/
def keep (kept : ℕ) : Shelf :=
  { s with
    data := Function.update s.data stage.inode
      ((s.data stage.inode).take (stage.chunk.start + kept)) }

/-- The request is dropped, and what is not in the stage is in flight. -/
def drop (kept : ℕ) : Shelf :=
  { s.keep stage kept with
    active := none
    flights := ⟨stage.chunk.id, stage.inode,
      ((s.data stage.inode).take (stage.chunk.start + kept)).length,
      (s.data stage.inode).drop (stage.chunk.start + kept)⟩ :: s.flights }

/-- Some bytes that were in flight are written. -/
def land (flight : ChunkFlight) (written : ℕ) : Shelf :=
  { s with
    data := Function.update s.data flight.inode
      (writeAt flight.position (flight.bytes.take written) (s.data flight.inode)) }

/-- One turn of the loop of `upload_outbound_chunk` over the body. -/
def receive (bytes : List UInt8) : Shelf × Option ChunkReply :=
  if stage.chunk.len < stage.received + bytes.length then
    s.refuse stage true 400 "upload body exceeds Content-Length"
  else
    ({ s.write stage bytes with
        active := some { stage with received := stage.received + bytes.length } }, none)

/-- `publish_outbound_stage`. -/
def publish (fault : Option FinishFault) : Shelf × Option ChunkReply :=
  match fault, s.destination with
  | some .expiry, _ =>
      ({ s with active := none },
        some ⟨some stage.chunk, .refused 500 "persist outbound stage expiry failed"⟩)
  | some .link, _ =>
      ({ s with active := none },
        some ⟨some stage.chunk, .refused 500 "publish outbound file failed"⟩)
  | _, some _ =>
      ({ s with stages := Function.update s.stages stage.chunk.id none, active := none },
        some ⟨some stage.chunk, .refused 409 "outbound file already exists"⟩)
  | _, none =>
      ({ s with destination := some stage.inode, active := none },
        some ⟨some stage.chunk, .complete stage.chunk.total stage.chunk.total⟩)

/-- The end of `upload_outbound_chunk` where the chunk is in the stage. -/
def conclude (fault : Option FinishFault) : Shelf × Option ChunkReply :=
  if stage.chunk.last + 1 < stage.chunk.total then
    ({ s with active := none },
      some ⟨some stage.chunk, .stored (stage.chunk.last + 1) stage.chunk.total⟩)
  else s.publish stage fault

/-- `upload_outbound_chunk` after the body. -/
def finish (fault : Option FinishFault) (cut : Bool) : Shelf × Option ChunkReply :=
  if stage.received ≠ stage.chunk.len then
    s.refuse stage cut 400 "upload body does not match Content-Length"
  else
    match fault with
    | some (.write kept) =>
        (s.keep stage kept).refuse stage cut 500 "write outbound staging file failed"
    | some .sync =>
        s.refuse stage cut 500
          (if stage.chunk.last + 1 < stage.chunk.total then "sync outbound staging file failed"
            else "sync outbound file failed")
    | fault => s.conclude stage fault

variable (maxUploadBytes : ℕ)

/-- One step at the path. -/
def step : ShelfEvent → Option (Shelf × Option ChunkReply)
  | .begin headers =>
      match admitChunk maxUploadBytes headers with
      | .error answer => some (s, some ⟨none, answer⟩)
      | .ok chunk => if s.active.isSome = true then none else some (s.prepare chunk)
  | .frame bytes => s.active.map fun stage => s.receive stage bytes
  | .frameFails bytes kept cut =>
      s.active.map fun stage =>
        if stage.chunk.len < stage.received + bytes.length then s.receive stage bytes
        else
          ((s.write stage bytes).keep stage kept).refuse stage cut 500
            "write outbound staging file failed"
  | .bodyFails cut => s.active.map fun stage => s.refuse stage cut 400 "invalid upload body"
  | .finish fault cut => s.active.map fun stage => s.finish stage fault cut
  | .dropped bytes kept => s.active.map fun stage => ((s.write stage bytes).drop stage kept, none)
  | .lands i written =>
      s.flights[i]?.map fun flight =>
        ({ s.land flight written with flights := s.flights.eraseIdx i }, none)
  | .sweep id =>
      if s.active.isSome = true then none
      else some ({ s with stages := Function.update s.stages id none }, none)
  | .delete => some ({ s with destination := none }, none)
  | .appears bytes =>
      if s.destination.isSome = true then none
      else
        some ({ s with
          data := Function.update s.data s.fresh bytes
          destination := some s.fresh
          fresh := s.fresh + 1 }, none)

end Shelf

/-! ### What a stage has -/

/-- The bytes of a body are those of the file that the upload is of, at the place of the chunk; and
no write of an earlier request is in flight when a request gets the lock. -/
def Shelf.Honest (files : List Char → List UInt8) (maxUploadBytes : ℕ) (s : Shelf) :
    ShelfEvent → Prop
  | .begin headers => ∀ chunk ∈ (admitChunk maxUploadBytes headers).toOption,
      chunk.total = (files chunk.id).length ∧ s.flights = []
  | .frame bytes | .frameFails bytes _ _ | .dropped bytes _ => ∀ stage ∈ s.active,
      bytes <+: (files stage.chunk.id).drop stage.position
  | _ => True

instance {files : List Char → List UInt8} {maxUploadBytes : ℕ} {s : Shelf} :
    (event : ShelfEvent) → Decidable (s.Honest files maxUploadBytes event)
  | .begin headers =>
      inferInstanceAs (Decidable (∀ chunk ∈ (admitChunk maxUploadBytes headers).toOption,
        chunk.total = (files chunk.id).length ∧ s.flights = []))
  | .frame bytes | .frameFails bytes _ _ | .dropped bytes _ =>
      inferInstanceAs (Decidable (∀ stage ∈ s.active,
        bytes <+: (files stage.chunk.id).drop stage.position))
  | .bodyFails _ | .finish _ _ | .lands _ _ | .sweep _ | .delete | .appears _ => .isTrue trivial

/-- What is known of the request that has the lock. -/
structure ChunkStage.Sound (files : List Char → List UInt8) (s : Shelf) (stage : ChunkStage) :
    Prop where
  held : s.stages stage.chunk.id = some stage.inode
  destination : s.destination ≠ some stage.inode
  content : s.data stage.inode = (files stage.chunk.id).take stage.position
  received : stage.received ≤ stage.chunk.len
  range : stage.chunk.start ≤ stage.chunk.last
  last : stage.chunk.last < stage.chunk.total
  total : stage.chunk.total = (files stage.chunk.id).length
  settled : s.flights = []

/-- What is known of the write that is in flight: what it writes goes on with the beginning of the
file that its stage has. -/
structure ChunkFlight.Sound (files : List Char → List UInt8) (s : Shelf) (flight : ChunkFlight) :
    Prop where
  alone : s.flights = [flight]
  idle : s.active = none
  known : flight.inode < s.fresh
  destination : s.destination ≠ some flight.inode
  apart : ∀ id, s.stages id = some flight.inode → id = flight.id
  content : s.data flight.inode = (files flight.id).take flight.position
  position : flight.position ≤ (files flight.id).length
  bytes : flight.bytes <+: (files flight.id).drop flight.position

/-- Every stage has the beginning of its file. -/
structure Shelf.Sound (files : List Char → List UInt8) (s : Shelf) : Prop where
  stages : ∀ id inode, s.stages id = some inode → inode < s.fresh
  destination : ∀ inode, s.destination = some inode → inode < s.fresh
  apart : ∀ id id' inode, s.stages id = some inode → s.stages id' = some inode → id = id'
  begun : ∀ id inode, s.stages id = some inode → s.data inode <+: files id
  active : ∀ stage, s.active = some stage → stage.Sound files s
  flights : ∀ flight ∈ s.flights, flight.Sound files s

/-- What an answer to a chunk says is so. -/
def ChunkAnswer.Told (files : List Char → List UInt8) (s : Shelf) (chunk : OutboundChunk) :
    ChunkAnswer → Prop
  | .complete offset bytes => offset = chunk.total ∧ bytes = chunk.total
      ∧ chunk.total = (files chunk.id).length
      ∧ ∃ inode, s.destination = some inode ∧ s.data inode = files chunk.id
  | .stored offset bytes => offset = chunk.last + 1 ∧ bytes = chunk.total ∧ offset < chunk.total
      ∧ ∃ inode, s.stages chunk.id = some inode ∧ s.data inode = (files chunk.id).take offset
  | .conflict offset bytes => offset < chunk.start ∧ bytes = chunk.total ∧ offset < chunk.total
      ∧ ∃ inode, s.stages chunk.id = some inode ∧ s.data inode = (files chunk.id).take offset
  | .refused _ _ => True

/-- What a step leaves: a sound path, the published file as it was until it is deleted, and an
answer that is true. -/
structure Shelf.Moved (files : List Char → List UInt8) (s s' : Shelf) (deleted : Prop)
    (reply : Option ChunkReply) : Prop where
  sound : s'.Sound files
  published : ∀ inode, s.destination = some inode →
    (s'.destination = some inode ∨ deleted) ∧ s'.data inode = s.data inode
  told : ∀ r ∈ reply, ∀ chunk ∈ r.chunk, r.answer.Told files s' chunk

variable {files : List Char → List UInt8} {maxUploadBytes : ℕ} {s s' : Shelf} {stage : ChunkStage}

theorem setLen_take {n k : ℕ} {file : List UInt8} (h : n ≤ k) (hk : k ≤ file.length) :
  setLen n (file.take k) = file.take n
  := by
  have hlength : (file.take k).length = k := List.length_take_of_le hk
  rw [setLen, List.take_take, Nat.min_eq_left h, hlength, Nat.sub_eq_zero_of_le h]
  exact List.append_nil _

theorem writeAt_take {position : ℕ} {bytes file : List UInt8} (hposition : position ≤ file.length)
    (h : bytes <+: file.drop position) :
  writeAt position bytes (file.take position) = file.take (position + bytes.length)
  := by
  have hdrop : (file.take position).drop (position + bytes.length) = [] := by
    rw [List.drop_eq_nil_iff, List.length_take]
    omega
  rw [writeAt, setLen_take le_rfl hposition, hdrop, List.append_nil, List.take_add,
    ← List.prefix_iff_eq_take.mp h]

theorem ChunkStage.Sound.position_le (h : stage.Sound files s) :
  stage.position ≤ (files stage.chunk.id).length
  := by
  have hreceived := h.received
  have hrange := h.range
  have hlast := h.last
  have htotal := h.total
  unfold OutboundChunk.len at hreceived
  unfold ChunkStage.position
  omega

/-- The stage of the active request is given another beginning of its file. -/
theorem Shelf.Sound.put
    (h : s.Sound files) (hheld : s.stages stage.chunk.id = some stage.inode)
    (hsettled : s.flights = []) {content : List UInt8} (hcontent : content <+: files stage.chunk.id)
    {active : Option ChunkStage}
    (hactive : ∀ next ∈ active, next.Sound files
      { s with data := Function.update s.data stage.inode content, active := active }) :
  { s with data := Function.update s.data stage.inode content, active := active }.Sound files
  := by
  refine ⟨h.stages, h.destination, h.apart, ?_, hactive, ?_⟩
  swap
  · intro flight hflight
    cases hsettled ▸ hflight
  intro id inode hid
  change Function.update s.data stage.inode content inode <+: files id
  by_cases heq : inode = stage.inode
  · subst heq
    cases h.apart _ _ _ hid hheld
    rw [Function.update_self]
    exact hcontent
  · rw [Function.update_of_ne heq]
    exact h.begun id inode hid

/-- The active request ends without another file at the path. -/
theorem Shelf.Sound.ended
    (h : s.Sound files) (hstage : stage.Sound files s) {content : List UInt8}
    (hcontent : content <+: files stage.chunk.id) {deleted : Prop} {reply : Option ChunkReply}
    (htold : ∀ r ∈ reply, ∀ chunk ∈ r.chunk, r.answer.Told files
      { s with data := Function.update s.data stage.inode content, active := none } chunk) :
  s.Moved files
    { s with data := Function.update s.data stage.inode content, active := none } deleted reply
  := by
  refine ⟨h.put hstage.held hstage.settled hcontent (by rintro _ ⟨⟩), ?_, htold⟩
  intro inode hinode
  have hne : inode ≠ stage.inode := fun heq => hstage.destination (heq ▸ hinode)
  exact ⟨.inl hinode, Function.update_of_ne hne _ _⟩

/-- A refusal leaves the beginning of the file, whether or not the stage is cut. -/
theorem Shelf.Sound.refuse
    (h : s.Sound files) (hactive : s.active = some stage) {k : ℕ} {content : List UInt8}
    (hk : stage.chunk.start ≤ k) (hfile : k ≤ (files stage.chunk.id).length)
    (hcontent : content = (files stage.chunk.id).take k) (cut : Bool) (status : ℕ)
    (message : String) (deleted : Prop) :
  s.Moved files
    (({ s with data := Function.update s.data stage.inode content } : Shelf).refuse stage cut status
      message).1 deleted
    (({ s with data := Function.update s.data stage.inode content } : Shelf).refuse stage cut status
      message).2
  := by
  have hstage := h.active stage hactive
  have hrefused : ∀ data, ∀ r ∈ some (⟨some stage.chunk, .refused status message⟩ : ChunkReply),
      ∀ chunk ∈ r.chunk, r.answer.Told files { s with data := data, active := none } chunk := by
    rintro _ _ ⟨⟩ _ _
    trivial
  cases cut with
  | false =>
      refine h.ended hstage ?_ (hrefused _)
      rw [hcontent]
      exact List.take_prefix ..
  | true =>
      have hcut : (({ s with data := Function.update s.data stage.inode content } : Shelf).refuse
            stage true status message).1
          = { s with
              data := Function.update s.data stage.inode
                ((files stage.chunk.id).take stage.chunk.start)
              active := none } := by
        rw [Shelf.refuse, if_pos rfl]
        dsimp only
        rw [Function.update_self, Function.update_idem, hcontent,
          setLen_take hk hfile]
      rw [hcut]
      exact h.ended hstage (List.take_prefix ..) (hrefused _)

theorem Shelf.update_data_eq_self (s : Shelf) (inode : ℕ) :
  { s with data := Function.update s.data inode (s.data inode) } = s
  := by
  rw [Function.update_eq_self]

theorem Shelf.Sound.refuse_here
    (h : s.Sound files) (hactive : s.active = some stage) (cut : Bool) (status : ℕ)
    (message : String) (deleted : Prop) :
  s.Moved files (s.refuse stage cut status message).1 deleted
    (s.refuse stage cut status message).2
  := by
  have hstage := h.active stage hactive
  have hrefuse := h.refuse hactive (Nat.le_add_right _ _) hstage.position_le hstage.content cut
    status message deleted
  rw [Shelf.update_data_eq_self] at hrefuse
  exact hrefuse

theorem Shelf.Sound.write_eq
    (h : stage.Sound files s) {bytes : List UInt8}
    (hbytes : bytes <+: (files stage.chunk.id).drop stage.position) :
  s.write stage bytes = { s with
    data := Function.update s.data stage.inode
      ((files stage.chunk.id).take (stage.position + bytes.length)) }
    ∧ stage.position + bytes.length ≤ (files stage.chunk.id).length
  := by
  have hle := h.position_le
  have hlength := hbytes.length_le
  rw [List.length_drop] at hlength
  refine ⟨?_, by omega⟩
  rw [Shelf.write, h.content, writeAt_take hle hbytes]

/-- A refusal leaves the beginning of the file when only some of the bytes are in the stage. -/
theorem Shelf.Sound.refuse_kept
    (h : s.Sound files) (hactive : s.active = some stage) {k : ℕ} {content : List UInt8}
    {t : Shelf} (ht : t = { s with data := Function.update s.data stage.inode content })
    (hk : stage.position ≤ k) (hfile : k ≤ (files stage.chunk.id).length)
    (hcontent : content = (files stage.chunk.id).take k) (kept : ℕ) (cut : Bool) (status : ℕ)
    (message : String) (deleted : Prop) :
  s.Moved files ((t.keep stage kept).refuse stage cut status message).1 deleted
    ((t.keep stage kept).refuse stage cut status message).2
  := by
  have hkeep : t.keep stage kept = { s with
      data := Function.update s.data stage.inode
        ((files stage.chunk.id).take (min (stage.chunk.start + kept) k)) } := by
    rw [ht, Shelf.keep]
    dsimp only
    rw [Function.update_self, Function.update_idem, hcontent, List.take_take]
  have hstart : stage.chunk.start ≤ stage.position := Nat.le_add_right ..
  rw [hkeep]
  exact h.refuse hactive (k := min (stage.chunk.start + kept) k) (by omega) (by omega) rfl ..

/-- A frame of the body goes on with the file. -/
theorem Shelf.Sound.receive
    (h : s.Sound files) (hactive : s.active = some stage) {bytes : List UInt8}
    (hbytes : bytes <+: (files stage.chunk.id).drop stage.position) (deleted : Prop) :
  s.Moved files (s.receive stage bytes).1 deleted (s.receive stage bytes).2
  := by
  have hstage := h.active stage hactive
  unfold Shelf.receive
  split_ifs with hfull
  · exact h.refuse_here hactive ..
  · obtain ⟨hwrite, hle⟩ := Shelf.Sound.write_eq hstage hbytes
    rw [hwrite]
    refine ⟨h.put hstage.held hstage.settled (List.take_prefix ..) ?_, ?_, ?_⟩
    · rintro next ⟨⟩
      exact
        { held := hstage.held
          destination := hstage.destination
          content := by
            change Function.update s.data stage.inode _ stage.inode = _
            rw [Function.update_self, ChunkStage.position, ChunkStage.position, Nat.add_assoc]
          received := not_lt.mp hfull
          range := hstage.range
          last := hstage.last
          total := hstage.total
          settled := hstage.settled }
    · intro inode hinode
      have hne : inode ≠ stage.inode := fun heq => hstage.destination (heq ▸ hinode)
      exact ⟨.inl hinode, Function.update_of_ne hne _ _⟩
    · rintro _ ⟨⟩

/-- What ends without a change of any file. -/
theorem Shelf.Sound.rests
    (h : s.Sound files) (hsettled : s.flights = []) {deleted : Prop} {reply : Option ChunkReply}
    (htold : ∀ r ∈ reply, ∀ chunk ∈ r.chunk,
      r.answer.Told files { s with active := none } chunk) :
  s.Moved files { s with active := none } deleted reply
  := by
  refine ⟨⟨h.stages, h.destination, h.apart, h.begun, by rintro _ ⟨⟩,
    fun flight hflight => by cases hsettled ▸ hflight⟩, ?_, htold⟩
  exact fun inode hinode => ⟨.inl hinode, rfl⟩

/-- A request that is dropped leaves the beginning of the file, and in flight what goes on with
it. -/
theorem Shelf.Sound.drop
    (h : s.Sound files) (hactive : s.active = some stage) {k : ℕ} {content : List UInt8}
    {t : Shelf} (ht : t = { s with data := Function.update s.data stage.inode content })
    (hfile : k ≤ (files stage.chunk.id).length)
    (hcontent : content = (files stage.chunk.id).take k) (kept : ℕ) (deleted : Prop) :
  s.Moved files (t.drop stage kept) deleted none
  := by
  have hstage := h.active stage hactive
  have hdata : t.data stage.inode = (files stage.chunk.id).take k := by
    rw [ht]
    dsimp only
    rw [Function.update_self, hcontent]
  have hshort : (((files stage.chunk.id).take k).take (stage.chunk.start + kept)).length
      = min (stage.chunk.start + kept) k := by
    rw [List.length_take, List.length_take_of_le hfile]
  have hdrop : t.drop stage kept = { s with
      data := Function.update s.data stage.inode
        ((files stage.chunk.id).take (min (stage.chunk.start + kept) k))
      active := none
      flights := [⟨stage.chunk.id, stage.inode, min (stage.chunk.start + kept) k,
        ((files stage.chunk.id).take k).drop (stage.chunk.start + kept)⟩] } := by
    rw [Shelf.drop, Shelf.keep, hdata, hshort, ht]
    dsimp only
    rw [Function.update_idem, List.take_take, hstage.settled]
  rw [hdrop]
  refine ⟨⟨h.stages, h.destination, h.apart, ?_, by rintro _ ⟨⟩, ?_⟩, ?_, by rintro _ ⟨⟩⟩
  · intro id inode hid
    have hput := h.put hstage.held hstage.settled
      (List.take_prefix (min (stage.chunk.start + kept) k) (files stage.chunk.id))
      fun next (hnext : next ∈ none) => nomatch hnext
    exact hput.begun id inode hid
  · intro flight hflight
    rw [List.mem_singleton] at hflight
    subst hflight
    exact
      { alone := rfl
        idle := rfl
        known := h.stages _ _ hstage.held
        destination := hstage.destination
        apart := fun id hid => h.apart _ _ _ hid hstage.held
        content := Function.update_self ..
        position := (Nat.min_le_right _ _).trans hfile
        bytes := by
          -- Where something is left, it begins at the end of the stage.
          by_cases hmore : stage.chunk.start + kept ≤ k
          · rw [Nat.min_eq_left hmore, List.drop_take]
            exact List.take_prefix ..
          · rw [List.drop_eq_nil_of_le (by rw [List.length_take]; omega)]
            exact List.nil_prefix }
  · intro inode hinode
    have hne : inode ≠ stage.inode := fun heq => hstage.destination (heq ▸ hinode)
    exact ⟨.inl hinode, Function.update_of_ne hne _ _⟩

/-- What lands goes on with the file. -/
theorem Shelf.Sound.land
    (h : s.Sound files) {flight : ChunkFlight} (hflight : flight ∈ s.flights) (written : ℕ)
    (deleted : Prop) :
  s.Moved files { s.land flight written with flights := [] } deleted none
  := by
  have hsound := h.flights flight hflight
  have hcontent : writeAt flight.position (flight.bytes.take written) (s.data flight.inode)
      = (files flight.id).take (flight.position + (flight.bytes.take written).length) := by
    rw [hsound.content]
    exact writeAt_take hsound.position ((List.take_prefix ..).trans hsound.bytes)
  refine ⟨⟨h.stages, h.destination, h.apart, ?_, ?_, by rintro _ ⟨⟩⟩, ?_, by rintro _ ⟨⟩⟩
  · intro id inode hid
    change Function.update s.data flight.inode _ inode <+: files id
    by_cases heq : inode = flight.inode
    · subst heq
      rw [Function.update_self, hcontent, hsound.apart id hid]
      exact List.take_prefix ..
    · rw [Function.update_of_ne heq]
      exact h.begun id inode hid
  · intro stage hactive
    cases hsound.idle.symm.trans hactive
  · intro inode hinode
    have hne : inode ≠ flight.inode := fun heq => hsound.destination (heq ▸ hinode)
    exact ⟨.inl hinode, Function.update_of_ne hne _ _⟩

/-- A stage that has all of its file is linked to the path, unless another file is there. -/
theorem Shelf.Sound.publish
    (h : s.Sound files) (hactive : s.active = some stage)
    (hwhole : s.data stage.inode = files stage.chunk.id) (fault : Option FinishFault)
    (deleted : Prop) :
  s.Moved files (s.publish stage fault).1 deleted (s.publish stage fault).2
  := by
  have hstage := h.active stage hactive
  unfold Shelf.publish
  split
  · refine h.rests hstage.settled ?_
    rintro _ ⟨⟩ _ _
    trivial
  · refine h.rests hstage.settled ?_
    rintro _ ⟨⟩ _ _
    trivial
  · refine ⟨⟨?_, h.destination, ?_, ?_, by rintro _ ⟨⟩,
      fun flight hflight => by cases hstage.settled ▸ hflight⟩,
      fun inode hinode => ⟨.inl hinode, rfl⟩, ?_⟩
    · intro id inode hid
      by_cases heq : id = stage.chunk.id
      · subst heq
        simp at hid
      · exact h.stages id inode (by simpa [heq] using hid)
    · intro id id' inode hid hid'
      by_cases heq : id = stage.chunk.id
      · subst heq
        simp at hid
      · by_cases heq' : id' = stage.chunk.id
        · subst heq'
          simp at hid'
        · exact h.apart id id' inode (by simpa [heq] using hid) (by simpa [heq'] using hid')
    · intro id inode hid
      by_cases heq : id = stage.chunk.id
      · subst heq
        simp at hid
      · exact h.begun id inode (by simpa [heq] using hid)
    · rintro _ ⟨⟩ _ _
      trivial
  · rename_i hnone
    refine ⟨⟨h.stages, ?_, h.apart, h.begun, by rintro _ ⟨⟩,
      fun flight hflight => by cases hstage.settled ▸ hflight⟩, ?_, ?_⟩
    · rintro inode ⟨⟩
      exact h.stages _ _ hstage.held
    · intro inode hinode
      cases hnone.symm.trans hinode
    · rintro _ ⟨⟩ _ ⟨⟩
      exact ⟨rfl, rfl, hstage.total, stage.inode, rfl, hwhole⟩

theorem Shelf.Sound.finish
    (h : s.Sound files) (hactive : s.active = some stage) (fault : Option FinishFault) (cut : Bool)
    (deleted : Prop) :
  s.Moved files (s.finish stage fault cut).1 deleted (s.finish stage fault cut).2
  := by
  have hstage := h.active stage hactive
  have hends : ∀ fault, stage.received = stage.chunk.len →
      s.Moved files (s.conclude stage fault).1 deleted (s.conclude stage fault).2 := by
    intro fault hreceived
    have hposition : stage.position = stage.chunk.last + 1 := by
      have hrange := hstage.range
      rw [OutboundChunk.len] at hreceived
      unfold ChunkStage.position
      omega
    have hcontent := hstage.content
    rw [hposition] at hcontent
    unfold Shelf.conclude
    split_ifs with hmore
    · refine h.rests hstage.settled ?_
      rintro _ ⟨⟩ _ ⟨⟩
      exact ⟨rfl, rfl, hmore, stage.inode, hstage.held, hcontent⟩
    · refine h.publish hactive ?_ ..
      have htotal := hstage.total
      rw [hcontent, List.take_of_length_le (by omega)]
  unfold Shelf.finish
  by_cases hreceived : stage.received ≠ stage.chunk.len
  · rw [if_pos hreceived]
    exact h.refuse_here hactive ..
  rw [if_neg hreceived]
  rw [not_not] at hreceived
  cases fault with
  | none => exact hends none hreceived
  | some fault =>
      cases fault with
      | write kept =>
          exact h.refuse_kept hactive (Shelf.update_data_eq_self s stage.inode).symm le_rfl
            hstage.position_le hstage.content ..
      | sync => exact h.refuse_here hactive ..
      | expiry => exact hends (some .expiry) hreceived
      | link => exact hends (some .link) hreceived

theorem Shelf.Sound.same
    (h : s.Sound files) {deleted : Prop} {reply : Option ChunkReply}
    (htold : ∀ r ∈ reply, ∀ chunk ∈ r.chunk, r.answer.Told files s chunk) :
  s.Moved files s deleted reply
  := ⟨h, fun _ hinode => ⟨.inl hinode, rfl⟩, htold⟩

/-- What is opened is a stage of the upload, and no other file has changed. -/
theorem Shelf.Sound.opened
    (h : s.Sound files) (hsettled : s.flights = []) (id : List Char) :
  (s.opened id).1.Sound files ∧ (s.opened id).1.flights = []
    ∧ (s.opened id).1.stages id = some (s.opened id).2
    ∧ (s.opened id).1.destination = s.destination ∧ (s.opened id).1.active = s.active
    ∧ ∀ inode, inode < s.fresh → (s.opened id).1.data inode = s.data inode
  := by
  unfold Shelf.opened
  cases hid : s.stages id with
  | some inode => exact ⟨h, hsettled, hid, rfl, rfl, fun _ _ => rfl⟩
  | none =>
      have hother : ∀ id' inode, Function.update s.stages id (some s.fresh) id' = some inode →
          id' = id ∧ inode = s.fresh ∨ id' ≠ id ∧ s.stages id' = some inode := by
        intro id' inode hinode
        by_cases heq : id' = id
        · subst heq
          rw [Function.update_self] at hinode
          exact .inl ⟨rfl, (Option.some.inj hinode).symm⟩
        · rw [Function.update_of_ne heq] at hinode
          exact .inr ⟨heq, hinode⟩
      have hdata : ∀ inode, inode < s.fresh →
          Function.update s.data s.fresh [] inode = s.data inode :=
        fun inode hinode => Function.update_of_ne hinode.ne _ _
      refine ⟨⟨?_, ?_, ?_, ?_, ?_, fun flight hflight => by cases hsettled ▸ hflight⟩, hsettled,
        Function.update_self .., rfl, rfl, hdata⟩
      · intro id' inode hinode
        obtain ⟨_, rfl⟩ | ⟨_, hinode⟩ := hother id' inode hinode
        · exact Nat.lt_succ_self _
        · exact Nat.lt_succ_of_lt (h.stages id' inode hinode)
      · exact fun inode hinode => Nat.lt_succ_of_lt (h.destination inode hinode)
      · intro id' id'' inode hinode hinode'
        obtain ⟨heq, hfresh⟩ | ⟨_, hold⟩ := hother id' inode hinode
        · obtain ⟨heq', _⟩ | ⟨_, hold'⟩ := hother id'' inode hinode'
          · rw [heq, heq']
          · have hlt := h.stages id'' inode hold'
            omega
        · obtain ⟨_, hfresh'⟩ | ⟨_, hold'⟩ := hother id'' inode hinode'
          · have hlt := h.stages id' inode hold
            omega
          · exact h.apart id' id'' inode hold hold'
      · intro id' inode hinode
        change Function.update s.data s.fresh [] inode <+: files id'
        obtain ⟨_, rfl⟩ | ⟨_, hinode⟩ := hother id' inode hinode
        · rw [Function.update_self]
          exact List.nil_prefix
        · rw [hdata inode (h.stages id' inode hinode)]
          exact h.begun id' inode hinode
      · intro stage hactive
        have hstage := h.active stage hactive
        have hne : stage.chunk.id ≠ id := by
          intro heq
          cases hid.symm.trans (heq ▸ hstage.held)
        exact
          { held := (Function.update_of_ne hne _ _).trans hstage.held
            destination := hstage.destination
            content := (hdata _ (h.stages _ _ hstage.held)).trans hstage.content
            received := hstage.received
            range := hstage.range
            last := hstage.last
            total := hstage.total
            settled := hsettled }

theorem admitChunk_ok {headers : ChunkHeaders} {chunk : OutboundChunk}
    (h : admitChunk maxUploadBytes headers = .ok chunk) :
  chunk.start ≤ chunk.last ∧ chunk.last < chunk.total
  := by
  obtain ⟨id, _, h⟩ := Fallible.bind_eq_ok.mp h
  obtain ⟨⟨start, last, total⟩, hrange, h⟩ := Fallible.bind_eq_ok.mp h
  obtain ⟨_, _, h⟩ := Fallible.bind_eq_ok.mp h
  obtain ⟨_, _, h⟩ := Fallible.bind_eq_ok.mp h
  obtain ⟨_, _, h⟩ := Fallible.bind_eq_ok.mp h
  obtain ⟨_, _, h⟩ := Fallible.bind_eq_ok.mp h
  obtain ⟨_, _, h⟩ := Fallible.bind_eq_ok.mp h
  obtain ⟨_, hlast, h⟩ := Fallible.bind_eq_ok.mp h
  cases h
  refine ⟨?_, Fallible.require_eq_ok.mp hlast⟩
  obtain ⟨_, _, hrange⟩ := Fallible.bind_eq_ok.mp hrange
  obtain ⟨_, _, hrange⟩ := Fallible.bind_eq_ok.mp hrange
  obtain ⟨_, _, hrange⟩ := Fallible.bind_eq_ok.mp hrange
  obtain ⟨_, _, hrange⟩ := Fallible.bind_eq_ok.mp hrange
  obtain ⟨_, _, hrange⟩ := Fallible.bind_eq_ok.mp hrange
  obtain ⟨_, _, hrange⟩ := Fallible.bind_eq_ok.mp hrange
  obtain ⟨_, _, hrange⟩ := Fallible.bind_eq_ok.mp hrange
  obtain ⟨_, hle, hrange⟩ := Fallible.bind_eq_ok.mp hrange
  cases hrange
  exact UInt64.le_iff_toNat_le.mp (Fallible.require_eq_ok.mp hle).1

/-- A chunk is refused, told where its stage ends, or begins there. -/
theorem Shelf.Sound.prepare
    (h : s.Sound files) {chunk : OutboundChunk}
    (hrange : chunk.start ≤ chunk.last) (hlast : chunk.last < chunk.total)
    (htotal : chunk.total = (files chunk.id).length) (hsettled : s.flights = [])
    (deleted : Prop) :
  s.Moved files (s.prepare chunk).1 deleted (s.prepare chunk).2
  := by
  unfold Shelf.prepare
  cases hdestination : s.destination with
  | some inode =>
      dsimp only
      split_ifs with hsame
      · refine h.same ?_
        rintro _ ⟨⟩ _ ⟨⟩
        have hbegun := h.begun chunk.id inode hsame.2
        refine ⟨rfl, rfl, htotal, inode, hdestination, hbegun.eq_of_length ?_⟩
        rw [hsame.1, htotal]
      · refine h.same ?_
        rintro _ ⟨⟩ _ _
        trivial
  | none =>
      obtain ⟨hopened, hsettled', hheld, hdestination', hactive, hdata⟩ :=
        h.opened hsettled chunk.id
      generalize hs : s.opened chunk.id = opened at *
      obtain ⟨s', inode⟩ := opened
      dsimp only at *
      have hbegun := List.prefix_iff_eq_take.mp (hopened.begun chunk.id inode hheld)
      have hlength := (hopened.begun chunk.id inode hheld).length_le
      split_ifs with hshort
      · refine ⟨hopened, ?_, ?_⟩
        · intro inode' hinode'
          cases hdestination.symm.trans hinode'
        · rintro _ ⟨⟩ _ ⟨⟩
          exact ⟨hshort, rfl, by omega, inode, hheld, hbegun⟩
      · have hcut : setLen chunk.start (s'.data inode) = (files chunk.id).take chunk.start := by
          rw [hbegun, setLen_take (not_lt.mp hshort) hlength]
        rw [hcut]
        refine ⟨?_, ?_, by rintro _ ⟨⟩⟩
        · refine @Shelf.Sound.put files s' ⟨chunk, inode, 0⟩ hopened hheld hsettled' _
            (List.take_prefix ..) _ ?_
          rintro next ⟨⟩
          exact
            { held := hheld
              destination := by
                change s'.destination ≠ _
                rw [hdestination', hdestination]
                exact (Option.some_ne_none _).symm
              content := Function.update_self ..
              received := Nat.zero_le _
              range := hrange
              last := hlast
              total := htotal
              settled := hsettled' }
        · intro inode' hinode'
          cases hdestination.symm.trans hinode'

theorem Shelf.Sound.step
    (h : s.Sound files) {event : ShelfEvent} {reply : Option ChunkReply}
    (hhonest : s.Honest files maxUploadBytes event)
    (hstep : s.step maxUploadBytes event = some (s', reply)) :
  s.Moved files s' (event = .delete) reply
  := by
  cases event with
  | begin headers =>
      rw [Shelf.step] at hstep
      cases hchunk : admitChunk maxUploadBytes headers with
      | error answer =>
          rw [hchunk] at hstep
          cases hstep
          refine h.same ?_
          rintro _ ⟨⟩ _ ⟨⟩
      | ok chunk =>
          rw [hchunk] at hstep
          dsimp only at hstep
          split_ifs at hstep
          obtain ⟨hrange, hlast⟩ := admitChunk_ok hchunk
          obtain ⟨htotal, hsettled⟩ := hhonest chunk (by rw [hchunk]; rfl)
          have hmoved := h.prepare hrange hlast htotal hsettled
            (ShelfEvent.begin headers = .delete)
          rw [Option.some.inj hstep] at hmoved
          exact hmoved
  | frame bytes =>
      obtain ⟨stage, hactive, hstep⟩ := Option.map_eq_some_iff.mp hstep
      have hmoved := h.receive hactive (hhonest stage hactive) (ShelfEvent.frame bytes = .delete)
      rw [hstep] at hmoved
      exact hmoved
  | frameFails bytes kept cut =>
      obtain ⟨stage, hactive, hstep⟩ := Option.map_eq_some_iff.mp hstep
      have hbytes := hhonest stage hactive
      split_ifs at hstep with hfull
      · have hmoved := h.receive hactive hbytes (ShelfEvent.frameFails bytes kept cut = .delete)
        rw [hstep] at hmoved
        exact hmoved
      · obtain ⟨hwrite, hle⟩ := Shelf.Sound.write_eq (h.active stage hactive) hbytes
        have hmoved := h.refuse_kept hactive hwrite (Nat.le_add_right _ _) hle rfl kept cut 500
          "write outbound staging file failed" (ShelfEvent.frameFails bytes kept cut = .delete)
        rw [hstep] at hmoved
        exact hmoved
  | bodyFails cut =>
      obtain ⟨stage, hactive, hstep⟩ := Option.map_eq_some_iff.mp hstep
      have hmoved := h.refuse_here hactive cut 400 "invalid upload body"
        (ShelfEvent.bodyFails cut = .delete)
      rw [hstep] at hmoved
      exact hmoved
  | finish fault cut =>
      obtain ⟨stage, hactive, hstep⟩ := Option.map_eq_some_iff.mp hstep
      have hmoved := h.finish hactive fault cut (ShelfEvent.finish fault cut = .delete)
      rw [hstep] at hmoved
      exact hmoved
  | dropped bytes kept =>
      obtain ⟨stage, hactive, hstep⟩ := Option.map_eq_some_iff.mp hstep
      obtain ⟨hwrite, hle⟩ := Shelf.Sound.write_eq (h.active stage hactive) (hhonest stage hactive)
      have hmoved := h.drop hactive hwrite hle rfl kept (ShelfEvent.dropped bytes kept = .delete)
      cases hstep
      exact hmoved
  | lands i written =>
      obtain ⟨flight, hflight, hstep⟩ := Option.map_eq_some_iff.mp hstep
      have hmoved := h.land (List.mem_of_getElem? hflight) written
        (ShelfEvent.lands i written = .delete)
      have hfirst : i = 0 := by
        have hlt := (List.getElem?_eq_some_iff.mp hflight).1
        rw [(h.flights flight (List.mem_of_getElem? hflight)).alone] at hlt
        exact Nat.lt_one_iff.mp hlt
      rw [hfirst, (h.flights flight (List.mem_of_getElem? hflight)).alone] at hstep
      cases hstep
      exact hmoved
  | sweep id =>
      rw [Shelf.step] at hstep
      split_ifs at hstep with hlocked
      cases hstep
      have hfree : s.active = none := by simpa using hlocked
      have hother : ∀ id' inode, Function.update s.stages id none id' = some inode →
          s.stages id' = some inode := by
        intro id' inode hinode
        by_cases heq : id' = id
        · subst heq
          rw [Function.update_self] at hinode
          cases hinode
        · rwa [Function.update_of_ne heq] at hinode
      refine ⟨⟨?_, h.destination, ?_, ?_, ?_, ?_⟩, fun inode hinode => ⟨.inl hinode, rfl⟩,
        by rintro _ ⟨⟩⟩
      · exact fun id' inode hinode => h.stages id' inode (hother id' inode hinode)
      · exact fun id' id'' inode hinode hinode' =>
          h.apart id' id'' inode (hother id' inode hinode) (hother id'' inode hinode')
      · exact fun id' inode hinode => h.begun id' inode (hother id' inode hinode)
      · intro stage hactive
        cases hfree.symm.trans hactive
      · intro flight hflight
        have hsound := h.flights flight hflight
        exact { hsound with apart := fun id' hid' => hsound.apart id' (hother id' _ hid') }
  | delete =>
      cases hstep
      refine ⟨⟨h.stages, by rintro _ ⟨⟩, h.apart, h.begun, ?_, ?_⟩, fun _ _ => ⟨.inr rfl, rfl⟩,
        by rintro _ ⟨⟩⟩
      · intro stage hactive
        have hstage := h.active stage hactive
        exact { hstage with destination := (Option.some_ne_none _).symm }
      · intro flight hflight
        have hsound := h.flights flight hflight
        exact { hsound with destination := (Option.some_ne_none _).symm }
  | appears bytes =>
      rw [Shelf.step] at hstep
      split_ifs at hstep with hthere
      cases hstep
      have hdata : ∀ inode, inode < s.fresh →
          Function.update s.data s.fresh bytes inode = s.data inode :=
        fun inode hinode => Function.update_of_ne hinode.ne _ _
      refine ⟨⟨?_, ?_, h.apart, ?_, ?_, ?_⟩, ?_, by rintro _ ⟨⟩⟩
      · exact fun id inode hinode => Nat.lt_succ_of_lt (h.stages id inode hinode)
      · rintro inode ⟨⟩
        exact Nat.lt_succ_self _
      · intro id inode hinode
        change Function.update s.data s.fresh bytes inode <+: files id
        rw [hdata inode (h.stages id inode hinode)]
        exact h.begun id inode hinode
      · intro stage hactive
        have hstage := h.active stage hactive
        have hlt := h.stages _ _ hstage.held
        exact
          { held := hstage.held
            destination := fun heq => hlt.ne (Option.some.inj heq).symm
            content := (hdata _ hlt).trans hstage.content
            received := hstage.received
            range := hstage.range
            last := hstage.last
            total := hstage.total
            settled := hstage.settled }
      · intro flight hflight
        have hsound := h.flights flight hflight
        exact
          { hsound with
            known := Nat.lt_succ_of_lt hsound.known
            destination := fun heq => hsound.known.ne (Option.some.inj heq).symm
            content := (hdata _ hsound.known).trans hsound.content }
      · intro inode hinode
        rw [hinode] at hthere
        exact absurd rfl hthere

/-! ### Runs -/

/-- A path where no upload has begun and there is no file. -/
def emptyShelf : Shelf where
  data := fun _ => []
  stages := fun _ => none
  destination := none
  fresh := 0
  active := none
  flights := []

/-- The state after a step. -/
def Shelf.next (maxUploadBytes : ℕ) (s : Shelf) (event : ShelfEvent) : Option Shelf :=
  (s.step maxUploadBytes event).map Prod.fst

theorem emptyShelf_sound : emptyShelf.Sound files where
  stages := by rintro _ _ ⟨⟩
  destination := by rintro _ ⟨⟩
  apart := by rintro _ _ _ ⟨⟩
  begun := by rintro _ _ ⟨⟩
  active := by rintro _ ⟨⟩
  flights := by rintro _ ⟨⟩

/-- The headers of one of two chunks of a file of two bytes. -/
def oneOfTwo (range : String) : ChunkHeaders where
  uploadId := some (List.replicate 64 '0')
  contentRange := some range.toList
  contentLength := some ['1']

/-- The first chunk is dropped once, with its write in flight, and the file is there after the
last. -/
def twoChunks : List ShelfEvent :=
  [.begin (oneOfTwo "bytes 0-0/2"), .dropped [7] 0, .lands 0 1, .begin (oneOfTwo "bytes 0-0/2"),
    .frame [7],
    .finish none true, .begin (oneOfTwo "bytes 1-1/2"), .frame [8]]

end Votport
