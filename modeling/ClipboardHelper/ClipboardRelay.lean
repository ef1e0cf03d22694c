import ClipboardHelper.AnnounceDelayed
import ClipboardHelper.ChunkProvider
import ClipboardHelper.HdropFormat
import ClipboardHelper.PipeReplies

/-!
# The clipboard and the parent, on Windows

The STA thread hears of each change of the clipboard, does the work items of
the pipe thread, and renders announced formats.  While it waits for the parent
it pumps messages, so that further calls run inside the wait; its calls form a
stack.  The pipe thread takes one message of the parent at a time and waits
until the work item it has made of it is done.

A step is what a thread does between two points where another thread, another
application or the parent gets in.  The helper's end is left out: behind
`SHUTDOWN` the pipe thread takes no more messages.
-/

namespace ClipboardRelay

open Library DispatchCodec
open AnnounceDelayed (Answers)
open ChunkServing (DataObject)

/-! ## The messages of the parent -/

/-- What `SET_CLIPBOARD` asks to be written. -/
inductive Written
  | text (wide : WideString)
  | image (png : Bytes)
  | files (paths : List WideString)
deriving DecidableEq, Repr

def Written.failure : Written → String
  | .text _ => "WriteClipboardText failed"
  | .image _ => "WriteClipboardImagePng failed"
  | .files _ => "WriteClipboardFiles failed"

/-- A message as far as `Handle` looks into it. -/
inductive Request
  | ignored
  | error (message : String)
  | write (written : Written)
  | read
  | announce (subPayload : Bytes)
  | provide (subPayload : Bytes)
  | fileChunkRequest (subPayload : Bytes)
  | fileChunkData (subPayload : Bytes)
  | shutdown
deriving DecidableEq, Repr

def setClipboard (sys : Platform) (data : Bytes) : Request :=
  match parseClipboardData data {} with
  | none => .error "SET_CLIPBOARD clipboard_data parse failed"
  | some pcd =>
    if pcd.contentType = .text then .write (.text (utf8ToWide sys (pcd.payload.getD [])))
    else if pcd.contentType = .image then .write (.image (pcd.payload.getD []))
    else if pcd.contentType = .files then
      let paths := HdropFormat.filePaths sys pcd.files
      if paths = [] then .ignored else .write (.files paths)
    else .ignored

/-- **`Handle`**, up to the call that does the work. -/
def handle (sys : Platform) (frame : Bytes) : Request :=
  match parseHelperMessage frame {} with
  | none => .ignored
  | some msg =>
    if msg.type = .setClipboard then
      msg.clipboardData.elim (.error "SET_CLIPBOARD missing clipboard_data") (setClipboard sys)
    else if msg.type = .getClipboard then .read
    else if msg.type = .announceDelayed then
      msg.announcement.elim (.error "ANNOUNCE_DELAYED missing announcement payload") .announce
    else if msg.type = .provideData then
      msg.provideData.elim (.error "PROVIDE_DATA missing provide_data payload") .provide
    else if msg.type = .fileChunkRequest then
      msg.fileChunkRequest.elim (.error "FILE_CHUNK_REQUEST missing file_chunk_request payload")
        .fileChunkRequest
    else if msg.type = .fileChunkData then
      msg.fileChunkData.elim (.error "FILE_CHUNK_DATA missing file_chunk_data payload")
        .fileChunkData
    else if msg.type = .fileTransferProgress then .ignored
    else if msg.type = .shutdown then .shutdown
    else .error "unknown or unsupported HelperMessageType"

/-! ## State -/

/-- What is on the clipboard, and who has put it there: another application,
the helper with `SetClipboardData`, with data or without, or the helper with
`OleSetClipboard`.  A snapshot is what can be read of it. -/
inductive Content
  | foreign (snapshot : Option ClipboardSnapshot)
  | written (snapshot : Option ClipboardSnapshot)
  | announced (formats : List (Nat × Option ClipboardSnapshot))
  | object (obj : DataObject) (snapshot : Option ClipboardSnapshot)
deriving DecidableEq, Repr

/-- What a reading finds that need not ask for a format. -/
def Content.snapshot : Content → Option ClipboardSnapshot
  | .foreign snapshot | .written snapshot | .object _ snapshot => snapshot
  | .announced _ => none

/-- `GetClipboardOwner` is the window of the STA thread. -/
def Content.windowOwned : Content → Bool
  | .written _ | .announced _ => true
  | _ => false

def Content.isForeign : Content → Bool
  | .foreign _ => true
  | _ => false

/-- The formats that the helper has announced, in the order in which
`ReadClipboard` asks for them. -/
def Content.formats : Content → List Nat
  | .announced formats => formats.map Prod.fst
  | _ => []

/-- What has been rendered of a format. -/
def Content.rendered (format : Nat) : Content → Option ClipboardSnapshot
  | .announced formats => (formats.find? fun f => f.1 = format).bind Prod.snd
  | _ => none

/-- `SetClipboardData` during a render. -/
def Content.fill (format : Nat) (snapshot : ClipboardSnapshot) : Content → Content
  | .announced formats =>
    .announced (formats.map fun f => if f.1 = format then (f.1, some snapshot) else f)
  | content => content

/-- Who has the clipboard open; another application may be waiting in
`GetClipboardData` for a render, which has a number. -/
inductive Holder
  | helper
  | other (waits : Option Nat)
deriving DecidableEq, Repr

structure Clipboard where
  content : Content := .foreign none
  /-- How often it has changed. -/
  change : Nat := 0
  opened : Option Holder := none
deriving DecidableEq, Repr

def Clipboard.put (c : Clipboard) (content : Content) : Clipboard :=
  { c with content := content, change := c.change + 1 }

/-- A `GetClipboardData` of another application returns, unless it has gone. -/
def Clipboard.returned (c : Clipboard) (paste : Nat) : Clipboard :=
  if c.opened = some (.other (some paste)) then { c with opened := some (.other none) } else c

/-- Who calls `ReadClipboard`: `OnClipboardChanged`, or the work item of
`GET_CLIPBOARD`. -/
inductive Reader
  | change
  | get
deriving DecidableEq, Repr

/-- Who has asked for the format that is rendered. -/
inductive Asker
  | paste (paste : Nat)
  | reader (reader : Reader)
deriving DecidableEq, Repr

/-- A call on the STA thread. -/
inductive Frame
  /-- `OnClipboardChanged`, before `OleIsCurrentClipboard`, -/
  | asking
  /-- and before `GetClipboardOwner`. -/
  | owning
  /-- `ReadClipboard`, before the clipboard is open, -/
  | opening (reader : Reader)
  /-- with the formats that it has not asked for, -/
  | reading (reader : Reader) (formats : List Nat)
  /-- and with the data of one. -/
  | found (reader : Reader) (snapshot : ClipboardSnapshot)
  /-- `OnClipboardChanged` with what it has read. -/
  | sending (change : Nat) (snapshot : ClipboardSnapshot)
  /-- `OnRenderFormat`; `pumped` if it has dispatched a message since it last
  looked at the render state. -/
  | rendering (id : Nat) (asker : Asker) (format : Nat) (pumped : Bool)
  /-- `FetchChunk`; `own` if a work item of the pipe thread reads the chunk. -/
  | fetching (key : Bytes) (own : Bool) (signalled : Bool)
deriving DecidableEq, Repr

/-- What the pipe thread has done on the STA thread. -/
inductive Item
  | write (written : Written)
  | read
  | announce (type : ClipboardContentType)
  | publish (obj : DataObject)
  | release
  | serve
deriving DecidableEq, Repr

inductive Pipe
  | reading
  /-- In `RunSync`. -/
  | waiting
  | calling (item : Item)
  /-- With the reply, and whether the virtual files are now its own. -/
  | answering (reply : Option Bytes) (ownVirtual : Option Bool)
  | stopped
deriving DecidableEq, Repr

structure Relay where
  clipboard : Clipboard := {}
  /-- How many `WM_CLIPBOARDUPDATE` are posted. -/
  updates : Nat := 0
  /-- Each `WM_RENDERFORMAT` that is sent, with its format. -/
  pastes : List (Nat × Nat) := []
  nextPaste : Nat := 0
  /-- The chunks that other applications want to read. -/
  reads : List Bytes := []
  /-- `outbound_data_object_` -/
  outbound : Option DataObject := none
  /-- `virtual_data_object_` is an object of the helper. -/
  ownVirtual : Bool := false
  render : DelayedRender.Render := {}
  /-- The calls of the STA thread, the innermost first. -/
  stack : List Frame := []
  /-- The work item that is pushed and not taken. -/
  job : Option Item := none
  pipe : Pipe := .reading
  inbox : List Bytes := []

/-- Why a change has not been reported. -/
inductive Missed
  | held
  | notOpened
  | notReadable
  | notSent
deriving DecidableEq, Repr

inductive Obs
  /-- Another application, or the helper, has changed the clipboard. -/
  | copied (change : Nat) (snapshot : Option ClipboardSnapshot)
  | put (change : Nat)
  /-- `CLIPBOARD_CHANGED` -/
  | changed (change : Nat) (snapshot : ClipboardSnapshot)
  | missed (change : Nat) (why : Missed)
  | took (frame : Bytes)
  | replied (frame : Bytes)
  /-- `DATA_REQUEST` -/
  | requested (asker : Asker)
  | expired
  | cancelled
  /-- An application that waits for a format has gone. -/
  | abandoned
  | render (o : DelayedRender.Obs)
deriving DecidableEq, Repr

/-- A stack with a wait on top, which dispatches messages. -/
def pumps (render : DelayedRender.Render) : List Frame → Bool
  | [] => true
  | .rendering id .. :: _ =>
    match render.calls id with
    | some call => call.progress = .waiting
    | none => false
  | .fetching .. :: _ => true
  | _ => false

/-- The wait has dispatched a message. -/
def pumped : List Frame → List Frame
  | .rendering id asker format _ :: rest => .rendering id asker format true :: rest
  | stack => stack

def Frame.isRendering : Frame → Bool
  | .rendering .. => true
  | _ => false

/-- `IsOsClipboardHeldByThisThread`. -/
def held (stack : List Frame) : Bool := stack.any Frame.isRendering

/-- `DeliverChunk`: the call that has waited longest under the key. -/
def deliverChunk (key : Bytes) : List Frame → List Frame
  | [] => []
  | .fetching key' own signalled :: rest =>
    if key' = key ∧ !rest.any (fun f => match f with
        | .fetching key' .. => key' = key
        | _ => false) then
      .fetching key' own true :: rest
    else .fetching key' own signalled :: deliverChunk key rest
  | f :: rest => f :: deliverChunk key rest

/-- `CancelAll`. -/
def cancelAll (stack : List Frame) : List Frame :=
  stack.map fun
    | .fetching key own _ => .fetching key own true
    | f => f

def Relay.free (s : Relay) : Bool := s.clipboard.opened.isNone && !held s.stack

/-! ## Steps -/

/-- How `OleSetClipboard` goes: it may fail with the clipboard emptied. -/
inductive Published
  | taken (snapshot : Option ClipboardSnapshot)
  | refused
  | emptied
deriving DecidableEq, Repr

inductive Action
  /-- The pipe thread takes a message; `virtual` if the file id of a
  `FILE_CHUNK_REQUEST` is that of a virtual file. -/
  | take (answers : Answers) (virtual : Bool)
  | call
  | reply
  /-- The STA thread takes the work item: `put` is what gets written, `none`
  when the clipboard is not emptied. -/
  | write (put : Option (Option ClipboardSnapshot))
  | read
  | announce (answers : Answers)
  | publish (published : Published)
  | release
  | serve (key : Bytes) (ok : Bool)
  /-- The STA thread takes `WM_CLIPBOARDUPDATE`. -/
  | update
  | isCurrent
  | isOwner
  | openClipboard (ok : Bool)
  /-- `GetClipboardData` for the next format. -/
  | ask
  | finishRead (ok : Bool)
  | sendChanged (ok : Bool)
  /-- The STA thread takes `WM_RENDERFORMAT`. -/
  | beginPaste
  | sendRequest (ok : Bool)
  | wake
  | recheck
  | collect
  | renderFormat (snapshot : Option ClipboardSnapshot)
  | leave
  /-- The STA thread takes a `Read` of another application. -/
  | beginFetch (ok : Bool)
  | endFetch
  /-- Outside: the parent, other applications, the clock. -/
  | sends (frame : Bytes)
  | opens
  | copies (snapshot : Option ClipboardSnapshot)
  | closes
  | pastes (format : Nat)
  | abandons
  | wants (key : Bytes)
  /-- A `WM_CLIPBOARDUPDATE` without a change, as behind a render. -/
  | notifies
  /-- Another window message. -/
  | posts
  | expires

/-- What the threads of the helper do by themselves. -/
def Action.own : Action → Bool
  | .sends _ | .opens | .copies _ | .closes | .pastes _ | .abandons | .wants _ | .notifies
  | .posts | .expires => false
  | _ => true

/-- The object that an announcement of files would publish. -/
def toPublish (answers : Answers) (ann : ParsedAnnouncement) : Option DataObject :=
  if AnnounceDelayed.specs answers ann = [] then none
  else if ann.transferId = [] then none
  else AnnounceDelayed.createVirtualClipboardDataObject answers
    (AnnounceDelayed.specs answers ann)

/-- The pipe thread has pushed a work item and waits. -/
def Relay.submit (s : Relay) (item : Item) : Relay :=
  { s with job := some item, pipe := .waiting }

/-- `HandleAnnounceDelayed`, up to the work item. -/
def announce (s : Relay) (answers : Answers) (subPayload : Bytes) : Relay × List Obs :=
  match parseAnnouncement subPayload {} with
  | none => (s, [])
  | some ann =>
    let (render, os) := DelayedRender.handleAnnounceDelayed s.render subPayload
    let s := { s with render := render }
    if ann.contentType = .files then
      match toPublish answers ann with
      | none => (s, os.map .render)
      | some obj => (s.submit (.publish obj), os.map .render)
    else (s.submit (.announce ann.contentType), os.map .render)

def take (sys : Platform) (s : Relay) (answers : Answers) (virtual : Bool) :
    Request → Relay × List Obs
  | .ignored => (s, [])
  | .error message => ({ s with pipe := .answering (encodeError sys (ascii message)) none }, [])
  | .write written => (s.submit (.write written), [])
  | .read => (s.submit .read, [])
  | .announce subPayload => announce s answers subPayload
  | .provide subPayload =>
    let (render, os) := DelayedRender.handleProvideData s.render subPayload
    ({ s with render := render }, os.map .render)
  | .fileChunkRequest subPayload =>
    match parseFileChunkRequest subPayload {} with
    | none => (s, [])
    | some _ => if virtual then (s.submit .serve, []) else (s, [])
  | .fileChunkData subPayload =>
    match parseFileChunkData subPayload {} with
    | none => (s, [])
    | some chunk =>
      ({ s with stack := deliverChunk (DispatcherChunkProvider.replyKey chunk) s.stack }, [])
  | .shutdown => ({ s with pipe := .stopped }, [])

def pipeStep (sys : Platform) (s : Relay) : Action → Option (Relay × List Obs)
  | .take answers virtual =>
    match s.pipe, s.inbox with
    | .reading, frame :: rest =>
      let (s, os) := take sys { s with inbox := rest } answers virtual (handle sys frame)
      some (s, .took frame :: os)
    | _, _ => none
  | .call =>
    match s.pipe with
    | .calling item => some (s.submit item, [])
    | _ => none
  | .reply =>
    match s.pipe with
    | .answering reply ownVirtual =>
      some ({ s with pipe := .reading, ownVirtual := ownVirtual.getD s.ownVirtual },
        reply.toList.map .replied)
    | _ => none
  | _ => none

/-- The work item is done, and `RunSync` returns. -/
def Relay.done (s : Relay) (reply : Option Bytes) : Relay :=
  { s with pipe := .answering reply none }

/-- A message is dispatched; `stack` is what its handler leaves to do. -/
def Relay.dispatch (s : Relay) (calls : List Frame) : Relay :=
  { s with stack := calls ++ pumped s.stack }

def itemStep (sys : Platform) (s : Relay) : Action → Option (Relay × List Obs)
  | .write put =>
    match s.job with
    | some (.write written) =>
      if pumps s.render s.stack then
        let s' := { s.dispatch [] with job := none }
        let error := encodeError sys (ascii written.failure)
        match put with
        | none => some (s'.done error, [])
        | some snapshot =>
          if s.free then
            some ({ s'.done (if snapshot = none then some error else none) with
                clipboard := s.clipboard.put (.written snapshot), updates := s.updates + 1 },
              [.put (s.clipboard.change + 1)])
          else none
      else none
    | _ => none
  | .read =>
    if s.job = some .read ∧ pumps s.render s.stack = true then
      some ({ s.dispatch [.opening .get] with job := none }, [])
    else none
  | .announce answers =>
    match s.job with
    | some (.announce type) =>
      if pumps s.render s.stack then
        let s' := { (s.dispatch []).done none with job := none }
        let answers := { answers with
          heldByThisThread := held s.stack
          openClipboard := fun i => s.clipboard.opened.isNone && answers.openClipboard i }
        match (AnnounceDelayed.announceDelayedFormatsForType answers type {}).2.content with
        | .promised formats =>
          some ({ s' with
              clipboard := s.clipboard.put (.announced (formats.map fun f => (f, none)))
              updates := s.updates + 1 },
            [.put (s.clipboard.change + 1)])
        | _ => some (s', [])
      else none
    | _ => none
  | .publish published =>
    match s.job with
    | some (.publish obj) =>
      if pumps s.render s.stack then
        let s' := { s.dispatch [] with job := none }
        match published with
        | .refused => some ({ s' with pipe := .calling .release }, [])
        | .emptied =>
          if s.clipboard.opened = none then
            some ({ s' with
                clipboard := s.clipboard.put (.foreign none), updates := s.updates + 1
                pipe := .calling .release },
              [.put (s.clipboard.change + 1)])
          else none
        | .taken snapshot =>
          if s.clipboard.opened = none then
            some ({ s' with
                clipboard := s.clipboard.put (.object obj snapshot), updates := s.updates + 1
                outbound := some obj
                pipe := if s.outbound.isSome then .calling .release else .answering none none },
              [.put (s.clipboard.change + 1)])
          else none
      else none
    | _ => none
  | .release =>
    if s.job = some .release ∧ pumps s.render s.stack = true then
      some ({ (s.dispatch []).done none with job := none }, [])
    else none
  | .serve key ok =>
    if s.job = some .serve ∧ pumps s.render s.stack = true then
      if s.ownVirtual = true ∧ ok = true then
        some ({ s.dispatch [.fetching key true false] with job := none }, [])
      else some ({ (s.dispatch []).done none with job := none }, [])
    else none
  | _ => none

/-- `ReadClipboard` has returned: the clipboard is closed. -/
def finish (sys : Platform) (s : Relay) (reader : Reader) (rest : List Frame)
    (snapshot : Option ClipboardSnapshot) : Relay × List Obs :=
  let s := { s with clipboard := { s.clipboard with opened := none }, stack := rest }
  match reader, snapshot with
  | .change, none => (s, [.missed s.clipboard.change .notReadable])
  | .change, some snap => ({ s with stack := .sending s.clipboard.change snap :: rest }, [])
  | .get, _ =>
    let own := match s.clipboard.content with
      | .object .. => true
      | _ => false
    let files := (snapshot.map fun snap => decide (snap.contentType = .files)).getD false
    ({ s with
        pipe := .answering (some (PipeReplies.handleGetClipboard sys snapshot))
          (if files then some own else none) }, [])

def readStep (sys : Platform) (s : Relay) : Action → Option (Relay × List Obs)
  | .update =>
    if pumps s.render s.stack then
      match s.updates with
      | 0 => none
      | n + 1 => some ({ s.dispatch [.asking] with updates := n }, [])
    else none
  | .isCurrent =>
    match s.stack with
    | .asking :: rest =>
      match s.outbound with
      | none => some ({ s with stack := .owning :: rest }, [])
      | some obj =>
        match s.clipboard.content with
        | .object obj' _ =>
          if obj' = obj then some ({ s with stack := rest }, [])
          else some ({ s with stack := .owning :: cancelAll rest, outbound := none }, [.cancelled])
        | _ => some ({ s with stack := .owning :: cancelAll rest, outbound := none }, [.cancelled])
    | _ => none
  | .isOwner =>
    match s.stack with
    | .owning :: rest =>
      if s.clipboard.content.windowOwned then some ({ s with stack := rest }, [])
      else some ({ s with stack := .opening .change :: rest }, [])
    | _ => none
  | .openClipboard ok =>
    match s.stack with
    | .opening reader :: rest =>
      if ok then
        if s.free then
          some ({ s with
              clipboard := { s.clipboard with opened := some .helper }
              stack := .reading reader s.clipboard.content.formats :: rest }, [])
        else none
      else
        match reader with
        | .change =>
          some ({ s with stack := rest },
            [.missed s.clipboard.change (if held rest then .held else .notOpened)])
        | .get =>
          some ({ s with
              stack := rest
              pipe := .answering (some (PipeReplies.handleGetClipboard sys none)) none }, [])
    | _ => none
  | .ask =>
    match s.stack with
    | .reading reader (format :: formats) :: rest =>
      match s.clipboard.content.rendered format with
      | some snapshot => some ({ s with stack := .found reader snapshot :: rest }, [])
      | none =>
        let (render, os) := DelayedRender.begin s.render format false
        let stack := .reading reader formats :: rest
        if render.nextCall = s.render.nextCall then
          some ({ s with render := render, stack := stack }, os.map .render)
        else
          some ({ s with
              render := render
              stack := .rendering s.render.nextCall (.reader reader) format false :: stack },
            os.map .render)
    | _ => none
  | .finishRead ok =>
    match s.stack with
    | .reading reader [] :: rest =>
      some (finish sys s reader rest (if ok then s.clipboard.content.snapshot else none))
    | .found reader snapshot :: rest =>
      some (finish sys s reader rest (if ok then some snapshot else none))
    | _ => none
  | .sendChanged ok =>
    match s.stack with
    | .sending change snap :: rest =>
      some ({ s with
          stack := rest
          ownVirtual := if snap.contentType = .files then false else s.ownVirtual },
        [if ok then .changed change snap else .missed change .notSent])
    | _ => none
  | _ => none

/-- The render state after a step of the call, and what it has shown. -/
def rendered (s : Relay) (r : Option (DelayedRender.Render × List DelayedRender.Obs)) :
    Option (Relay × List Obs) :=
  r.map fun r => ({ s with render := r.1 }, r.2.map .render)

/-- `GetClipboardData` of `ReadClipboard` returns; what has been rendered is
there to be read. -/
def again (content : Content) (format : Nat) : List Frame → List Frame
  | .reading reader formats :: rest =>
    match content.rendered format with
    | some snapshot => .found reader snapshot :: rest
    | none => .reading reader formats :: rest
  | stack => stack

def renderStep (s : Relay) : Action → Option (Relay × List Obs)
  | .beginPaste =>
    if pumps s.render s.stack then
      match s.pastes with
      | [] => none
      | (paste, format) :: pastes =>
        let (render, os) := DelayedRender.begin s.render format false
        let s' := { s with render := render, pastes := pastes }
        if render.nextCall = s.render.nextCall then
          some ({ s'.dispatch [] with clipboard := s.clipboard.returned paste }, os.map .render)
        else
          some (s'.dispatch [.rendering s.render.nextCall (.paste paste) format false],
            os.map .render)
    else none
  | .sendRequest ok =>
    match s.stack with
    | .rendering id asker _ _ :: _ =>
      (rendered s (DelayedRender.send s.render id ok)).map fun r =>
        (r.1, (if ok then [.requested asker] else []) ++ r.2)
    | _ => none
  | .wake =>
    match s.stack with
    | .rendering id .. :: _ => rendered s (DelayedRender.wait s.render id .signalled)
    | _ => none
  | .recheck =>
    match s.stack with
    | .rendering id asker format true :: rest =>
      rendered { s with stack := .rendering id asker format false :: rest }
        (DelayedRender.wait s.render id .pumped)
    | _ => none
  | .collect =>
    match s.stack with
    | .rendering id .. :: _ => rendered s (DelayedRender.collect s.render id)
    | _ => none
  | .renderFormat snapshot =>
    match s.stack with
    | .rendering id _ format _ :: _ =>
      rendered { s with
          clipboard := { s.clipboard with
            content := snapshot.elim s.clipboard.content fun snap =>
              s.clipboard.content.fill format snap } }
        (DelayedRender.render s.render id)
    | _ => none
  | .leave =>
    match s.stack with
    | .rendering id asker format _ :: rest =>
      match s.render.calls id with
      | some ⟨_, _, _, .finished⟩ =>
        match asker with
        | .paste paste =>
          some ({ s with stack := rest, clipboard := s.clipboard.returned paste }, [])
        | .reader _ => some ({ s with stack := again s.clipboard.content format rest }, [])
      | _ => none
    | _ => none
  | _ => none

/-- A `FetchChunk` has returned; behind its own one the work item is done. -/
def fetched (s : Relay) (own : Bool) (rest : List Frame) : Relay :=
  if own then { s.done none with stack := rest } else { s with stack := rest }

def fetchStep (s : Relay) : Action → Option (Relay × List Obs)
  | .beginFetch ok =>
    if pumps s.render s.stack then
      match s.reads with
      | [] => none
      | key :: reads =>
        let s' := { s with reads := reads }
        some (s'.dispatch (if ok then [.fetching key false false] else []), [])
    else none
  | .endFetch =>
    match s.stack with
    | .fetching _ own true :: rest => some (fetched s own rest, [])
    | _ => none
  | _ => none

def outsideStep (s : Relay) : Action → Option (Relay × List Obs)
  | .sends frame => some ({ s with inbox := s.inbox ++ [frame] }, [])
  | .opens =>
    if s.clipboard.opened = none then
      some ({ s with clipboard := { s.clipboard with opened := some (.other none) } }, [])
    else none
  | .copies snapshot =>
    if s.clipboard.opened = some (.other none) then
      some ({ s with
          clipboard := s.clipboard.put (.foreign snapshot), updates := s.updates + 1 },
        [.copied (s.clipboard.change + 1) snapshot])
    else none
  | .closes =>
    if s.clipboard.opened = some (.other none) then
      some ({ s with clipboard := { s.clipboard with opened := none } }, [])
    else none
  | .pastes format =>
    if s.clipboard.opened = some (.other none) ∧ format ∈ s.clipboard.content.formats ∧
        s.clipboard.content.rendered format = none then
      some ({ s with
          clipboard := { s.clipboard with opened := some (.other (some s.nextPaste)) }
          pastes := s.pastes ++ [(s.nextPaste, format)], nextPaste := s.nextPaste + 1 }, [])
    else none
  | .abandons =>
    match s.clipboard.opened with
    | some (.other (some _)) =>
      some ({ s with clipboard := { s.clipboard with opened := none } }, [.abandoned])
    | _ => none
  | .wants key => some ({ s with reads := s.reads ++ [key] }, [])
  | .notifies => some ({ s with updates := s.updates + 1 }, [])
  | .posts => if pumps s.render s.stack then some (s.dispatch [], []) else none
  | .expires =>
    match s.stack with
    | .rendering id .. :: _ =>
      (rendered s (DelayedRender.wait s.render id .expired)).map fun r =>
        (r.1, .expired :: r.2)
    | .fetching _ own _ :: rest => some (fetched s own rest, [.expired])
    | _ => none
  | _ => none

/-- **The helper between the clipboard and the parent**, under every
interleaving of its threads, the parent and the other applications. -/
def machine (sys : Platform) : Machine Relay Action Obs where
  step s a :=
    (pipeStep sys s a).or <| (itemStep sys s a).or <| (readStep sys s a).or <|
      (renderStep s a).or <| (fetchStep s a).or <| outsideStep s a

/-- The helper before the first message, with what is on the clipboard. -/
def initial (renderEvent : Option Bool) (before : Option ClipboardSnapshot) : Relay where
  clipboard := { content := .foreign before }
  render := DelayedRender.initial renderEvent

end ClipboardRelay
