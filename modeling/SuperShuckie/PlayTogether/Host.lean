import SuperShuckie.Lib.Runs
import SuperShuckie.Lib.Threads
import SuperShuckie.PlayTogether.Publishing
import SuperShuckie.PlayTogether.Roster

/-!
# The host of a session

The host serves each connection with a reader and a writer thread of its own, accepts connections on
another, and its frontend, its publisher and a timer call into it as well.  A handler runs as a list of
jobs.  A job is what a thread does without another getting in: what it does while it holds the lock of
the session, or one push onto a queue.  Between two jobs of one thread any other thread may run.

The lock is held over several jobs at one place only, the admission of a client; `holder` is the thread
that is there, and jobs of the others that need the lock wait.
-/

set_option autoImplicit false

namespace SuperShuckie

open ByteFormat

namespace PlayTogether

def protocolVersion : UInt32 := 6

/-! ## What the host keeps -/

/-- What waits in the ordinary lane of a connection.  A `message` is already framed. -/
inductive Item
  | message (m : Message)
  | stream (firstFrame : UInt64) (bytes : Bytes)
  | snapshot (data : SnapshotData) (target : PeerId)
  | startState (data : StartStateData)
deriving DecidableEq

/-- What the host publishes of its own game. -/
inductive Publication
  | stream (firstFrame : UInt64) (bytes : Bytes)
  | snapshot (data : SnapshotData) (target : PeerId)
  | syncHash (frame : UInt64) (hash : Blake3Hash)

def Publication.item : Publication → Item
  | stream firstFrame bytes => .stream firstFrame bytes
  | snapshot data target => .snapshot data target
  | syncHash frame hash => .message (.syncHash hostPeerId frame hash)

/-- Whom it is for, 0 for everyone. -/
def Publication.target : Publication → PeerId
  | snapshot _ target => target
  | _ => 0

/-- A connection: who is at the other end, its two lanes, what its writer has taken and not written yet,
and what it has written. -/
structure Conn where
  /-- 0 until the client is admitted. -/
  peerId : PeerId
  info : Option ParticipantInfo
  closing : Bool
  items : List Item
  urgent : List Message
  writing : List Item
  written : List Item

namespace Conn

/-- A connection that was just accepted. -/
def new : Conn := ⟨0, none, false, [], [], [], []⟩

def Admitted (c : Conn) : Prop := c.peerId ≠ 0

instance (c : Conn) : Decidable c.Admitted := inferInstanceAs (Decidable (c.peerId ≠ 0))

/-- Who is at the other end. -/
def who (c : Conn) : PeerId × Option ParticipantInfo := (c.peerId, c.info)

/-- Queue an item; a queue that is full or closed does not take it. -/
def push (full : Bool) (item : Item) (c : Conn) : Conn :=
  if c.closing ∨ full then c else { c with items := c.items ++ [item] }

/-- Queue a message on the urgent lane. -/
def pushUrgent (full : Bool) (m : Message) (c : Conn) : Conn :=
  if c.closing ∨ full then c else { c with urgent := c.urgent ++ [m] }

/-- The client is admitted as `participant`. -/
def admitAs (participant : ParticipantInfo) (c : Conn) : Conn :=
  { c with peerId := participant.peerId, info := some participant }

/-- Begin closing.  With `flush`, what is queued is still sent. -/
def beginClose (flush : Bool) (c : Conn) : Conn :=
  if flush then { c with closing := true }
  else { c with closing := true, items := [], urgent := [] }

/-- The writer takes everything, the urgent lane first, and may add a ping. -/
def drain (ping : Option (UInt32 × UInt64)) (c : Conn) : Conn :=
  { c with
    items := []
    urgent := []
    writing := c.urgent.map .message ++ c.items ++
      (ping.map fun p ↦ Item.message (.ping p.1 p.2)).toList }

/-- Between two runs the writer takes what is on the urgent lane. -/
def takeUrgent (c : Conn) : Conn :=
  { c with urgent := [], writing := c.urgent.map .message ++ c.writing }

/-- The writer writes the next message. -/
def write (c : Conn) : Conn :=
  match c.writing with
  | item :: writing => { c with writing, written := c.written ++ [item] }
  | [] => c

end Conn

/-- The sync-pause setting and state of a session. -/
structure SyncPause where
  enabled : Bool
  paused : Bool
  hostOnly : Bool
deriving DecidableEq

def SyncPause.message (s : SyncPause) : Message := .syncPause s.enabled s.paused s.hostOnly

/-- What everyone is told when two are linked, or are no longer. -/
def linkNews (a b : PeerId) (linked : Bool) : Message :=
  if linked then .peerLinked (min a b) (max a b) else .peerUnlinked (min a b) (max a b)

/-- What everyone is told of a start state, or that there is none any more. -/
def startItem : Option StartStateData → Item
  | some data => .startState data
  | none => .message (.startState ⟨zeroHash, .raw, 0, []⟩)

/-- A `Hello`. -/
structure Hello where
  protocolVersion : UInt32
  replayVersion : UInt32
  appVersion : String
  displayName : String
  color : PlayerColor
  publisher : PublisherInfo

/-- What the host's own frontend is told. -/
inductive HostEvent
  | joined (info : ParticipantInfo)
  | left (peer : PeerId) (reason : LeaveReason)
  | pauseChanged (sender : PeerId) (paused : Bool)
  | link (m : Message)

/-- The threads of the host. -/
inductive HostThread
  | reader (c : Nat)
  | writer (c : Nat)
  | accept
  | tick
  | frontend
  | publisher
deriving DecidableEq

/-- What a thread does without another getting in. -/
inductive Job
  | register (c : Nat)
  /-- Queue a message, whether or not there is room for it. -/
  | send (c : Nat) (m : Message)
  /-- Queue an item; a full queue closes the connection as too slow. -/
  | pushTo (c : Nat) (item : Item)
  | pushToPeer (peer : PeerId) (item : Item)
  | broadcast (item : Item) (except : PeerId)
  | publish (p : Publication)
  | askSnapshot (publisher : PeerId)
  | close (c : Nat) (reason : LeaveReason) (flush : Bool)
  | leaving (c : Nat) (reason : LeaveReason)
  | unlist (c : Nat) (peer : PeerId) (reason : LeaveReason)
  | departed (peer : PeerId) (reason : LeaveReason)
  | deliverLink (target : PeerId) (m : Message)
  | announceLink (a b : PeerId) (linked : Bool)
  | notify (event : HostEvent)
  | routeLink (sender target : PeerId) (m : Message)
  | requestOurs (sender target : PeerId) (nonce : UInt32) (theirs : ReplayConsoleType) (m : Message)
  | recordRequest (sender target : PeerId) (nonce : UInt32) (theirs ours : ReplayConsoleType)
      (m : Message)
  | admitPeer (c : Nat) (hello : Hello)
  | admitLocked (c : Nat) (hello : Hello) (start : Option StartStateData)
  | admitPause (c : Nat)
  | admitSpeed (c : Nat)
  | admitStart (c : Nat) (start : Option StartStateData)
  | admitVisible (c : Nat) (participant : ParticipantInfo)
  | notePause (sender : PeerId) (paused : Bool)
  | storePause (state : SyncPause)
  | storeSpeed (speed : Speed)
  | storeStart (start : Option StartStateData)
  | kick (peer : PeerId)
  | sendLink (m : LinkMessage)

/-- Whether a job takes the lock of the session. -/
def Job.needsLock : Job → Bool
  | register _ | pushToPeer .. | broadcast .. | publish _ | askSnapshot _ | unlist .. | departed ..
  | routeLink .. | requestOurs .. | recordRequest .. | admitLocked .. | kick _ | sendLink _ => true
  | deliverLink target _ => target ≠ hostPeerId
  | _ => false

/-- What happened so far, which the host does not keep: who was admitted, whose departure was taken from
the roster and whose was announced, who asked whom for a link, and who accepted whose request. -/
structure Past where
  joined : List ParticipantInfo
  departed : List PeerId
  announced : List PeerId
  asked : List LinkAsk
  agreed : List LinkAsk

structure Host where
  /-- Every connection that was ever accepted, by its number. -/
  conn : Nat → Conn
  accepted : Nat
  /-- The connections that have not started closing, pending and admitted alike. -/
  listed : List Nat
  nextPeerId : PeerId
  roster : Roster
  syncPause : SyncPause
  linkSpeed : Speed
  startState : Option StartStateData
  events : List HostEvent
  holder : Option HostThread
  threads : HostThread → List Job
  past : Past

/-- What a session is hosted with: the host's own participant, and how names and colours are given
out. -/
structure HostConfig where
  own : ParticipantInfo
  sessionId : SessionId
  maxParticipants : Nat
  allowNintendoDS : Bool
  dedupeDisplayName : String → List String → String
  assignColor : PlayerColor → List PlayerColor → UInt64 → PlayerColor

namespace Host

/-- A session that was just hosted. -/
def new : Host where
  conn _ := .new
  accepted := 0
  listed := []
  nextPeerId := hostPeerId + 1
  roster := .empty
  syncPause := ⟨false, false, false⟩
  linkSpeed := .default
  startState := none
  events := []
  holder := none
  threads _ := []
  past := ⟨[], [], [], [], []⟩

/-- Change one connection. -/
def onConn (c : Nat) (f : Conn → Conn) (h : Host) : Host :=
  { h with conn := Function.update h.conn c (f (h.conn c)) }

/-- The connections of admitted clients. -/
def admittedConns (h : Host) : List Nat := h.listed.filter fun c ↦ (h.conn c).Admitted

def connFor (peer : PeerId) (h : Host) : Option Nat :=
  if peer = 0 then none else h.listed.find? fun c ↦ (h.conn c).peerId = peer

/-- The console of a participant, if it is in the session. -/
def consoleOf (config : HostConfig) (peer : PeerId) (h : Host) : Option ReplayConsoleType :=
  if peer = hostPeerId then some config.own.publisher.metadata.consoleType
  else (h.connFor peer).bind fun c ↦
    (h.conn c).info.map fun info ↦ info.publisher.metadata.consoleType

/-- The participants whose connections have not started closing. -/
def admittedInfos (h : Host) : List ParticipantInfo := h.listed.filterMap fun c ↦ (h.conn c).info

end Host

/-! ## The handlers -/

section handlers

variable (config : HostConfig)

/-- Tell the peer it broke the protocol and close. -/
def protocolError (c : Nat) (text : String) : List Job :=
  [.send c (.error text), .close c .protocolError true]

/-- Refuse a pending connection and close it. -/
def refuse (c : Nat) (reason : RefusalReason) (text : String) : List Job :=
  [.send c (.refused reason text), .close c .left true]

/-- Why a `Hello` is refused before the lock is taken, and no start state is set. -/
def helloRefusal (hello : Hello) : Option (RefusalReason × String) :=
  if hello.protocolVersion ≠ protocolVersion then
    some (.protocolVersion,
      s!"this host speaks Play Together protocol {protocolVersion}, but you speak {hello.protocolVersion}; one of you needs to update")
  else if hello.replayVersion.toNat ≠ replayVersion then
    some (.replayVersion,
      s!"this host records replay format {replayVersion}, but you record {hello.replayVersion}; one of you needs to update")
  else if hello.publisher.metadata.consoleType = .nintendoDS ∧ ¬ config.allowNintendoDS then
    some (.consoleUnsupported, "Nintendo DS is not supported by Play Together yet")
  else if hello.publisher.metadata.consoleType = .nintendo3DS then
    some (.consoleUnsupported, "Nintendo 3DS is not supported by Play Together yet")
  else if hello.publisher.metadata.consoleType = .unknown then
    some (.consoleUnsupported, "your session's console is unknown")
  else if hello.publisher.metadata.patchFormat ≠ .unpatched then
    some (.patchedRomUnsupported, "patched ROMs are not supported by Play Together yet")
  else none

/-- Route a link cable message of `sender`. -/
def routeLink (sender target : PeerId) (m : Message) (h : Host) : List Job × Host :=
  if target = sender then ([], h)
  else
    match m with
    | .linkRequest _ _ nonce _ =>
      match h.consoleOf config target with
      | none => ([.deliverLink sender (.linkDecline target sender nonce .unavailable)], h)
      | some theirs => ([.requestOurs sender target nonce theirs m], h)
    | .linkAccept _ _ nonce =>
      if (target, sender, nonce) ∈ h.roster.requests then
        let roster := h.roster.answered (target, sender, nonce)
        let past := { h.past with agreed := (target, sender, nonce) :: h.past.agreed }
        if roster.IsLinked sender ∨ roster.IsLinked target then
          ([.deliverLink sender (.unlink target sender .busy)], { h with roster, past })
        else
          ([.deliverLink target m, .announceLink target sender true],
            { h with roster := roster.link target sender, past })
      -- the request was answered, withdrawn, or never relayed
      else ([], h)
    | .linkDecline _ _ nonce _ =>
      if (target, sender, nonce) ∈ h.roster.requests then
        ([.deliverLink target m], { h with roster := h.roster.answered (target, sender, nonce) })
      else ([], h)
    | .linkStart .. | .linkFrame .. =>
      if h.roster.AreLinked sender target then ([.deliverLink target m], h) else ([], h)
    | .unlink .. =>
      (if h.roster.AreLinked sender target then
          [.deliverLink target m, .announceLink sender target false]
        else [],
        { h with roster := h.roster.unlink sender target })
    | _ => ([], h)

/-- Put a request into the roster, or decline it for the target. -/
def recordRequest (sender target : PeerId) (nonce : UInt32) (theirs ours : ReplayConsoleType)
    (m : Message) (h : Host) : List Job × Host :=
  if h.roster.IsLinked sender ∨ h.roster.IsLinked target then
    ([.deliverLink sender (.linkDecline target sender nonce .busy)], h)
  else if canLink ours theirs then
    ([.deliverLink target m],
      { h with
        roster := h.roster.record (sender, target, nonce)
        past := { h.past with asked := (sender, target, nonce) :: h.past.asked } })
  else ([.deliverLink sender (.linkDecline target sender nonce .consoleMismatch)], h)

/-- The participant that a client is admitted as. -/
def newParticipant (hello : Hello) (h : Host) : ParticipantInfo where
  peerId := h.nextPeerId
  displayName := config.dedupeDisplayName hello.displayName
    (config.own.displayName :: h.admittedInfos.map (·.displayName))
  color := config.assignColor hello.color (config.own.color :: h.admittedInfos.map (·.color))
    (config.sessionId ^^^ (h.nextPeerId.toUInt64 * 0x9E3779B97F4A7C15))
  appVersion := hello.appVersion
  publisher := hello.publisher

/-- The `Welcome` of a new participant. -/
def welcomeMessage (participant : ParticipantInfo) (h : Host) : Message :=
  .welcome participant.peerId config.sessionId participant.displayName participant.color
    (config.own :: h.admittedInfos)

/-- Take the lock and admit the client, if there is room for it.  The `Welcome` is queued before the
connection counts as admitted, still under the lock. -/
def admitLocked (full : Bool) (t : HostThread) (c : Nat) (hello : Hello)
    (start : Option StartStateData) (h : Host) : List Job × Host :=
  if config.maxParticipants ≤ h.admittedInfos.length + 1 then
    (refuse c .sessionFull s!"the session already has {config.maxParticipants} participants", h)
  else
    let participant := newParticipant config hello h
    ([.admitPause c, .admitSpeed c, .admitStart c start, .admitVisible c participant,
        .broadcast (.message (.peerJoined participant)) participant.peerId,
        .notify (.joined participant)],
      { h.onConn c (·.push full (.message (welcomeMessage config participant h))) with
        nextPeerId := h.nextPeerId + 1
        holder := some t })

/-- What a message from an admitted peer makes its reader do.  `bad` says why the data inside could not
be read, if it could not, and `gap` that a part of the stream is missing. -/
def handleAdmitted (c : Nat) (peer : PeerId) (bad : Option String) (gap : Bool) :
    Message → List Job
  | .hello .. => protocolError c "a second Hello on an admitted connection"
  | .welcome .. | .refused .. | .peerJoined _ | .peerLeft .. | .resetAll .. | .syncPause ..
  | .linkSpeed _ | .startState _ | .peerLinked .. | .peerUnlinked .. =>
    protocolError c "only the host sends that message"
  | .pause _ paused => [.notePause peer paused]
  | .stream _ firstFrame bytes =>
    match bad with
    | some text => protocolError c text
    | none =>
      .broadcast (.message (.stream peer firstFrame bytes)) peer ::
        if gap then [.askSnapshot peer] else []
  | .syncHash _ frame hash => [.broadcast (.message (.syncHash peer frame hash)) peer]
  | .snapshot s =>
    let m := Message.snapshot { s with fromPeer := peer }
    (if s.target = 0 then [.broadcast (.message m) peer]
      else if s.target = hostPeerId then []
      else [.pushToPeer s.target (.message m)]) ++
    -- the host reads the state only when it follows the peer
    match bad with
    | some text => if s.target = 0 ∨ s.target = hostPeerId then protocolError c text else []
    | none => []
  | .requestSnapshot _ target =>
    if target = hostPeerId then [] else [.pushToPeer target (.message (.requestSnapshot peer target))]
  | .ping nonce millis => [.send c (.pong nonce millis)]
  | .pong .. => []
  | .goodbye => [.close c .left false]
  | .error _ => [.close c .protocolError false]
  | m =>
    match bad, m with
    | some text, .linkFrame .. => protocolError c text
    | _, _ =>
      match m.linkEndpoints with
      | some (_, target) => [.routeLink peer target (m.stampFrom peer)]
      | none => []

/-- What a message makes the reader of a connection do. -/
def handleMessage (c : Nat) (bad : Option String) (gap : Bool) (m : Message) (h : Host) :
    List Job :=
  if (h.conn c).peerId = 0 then
    match m with
    | .hello protocolVersion replayVersion appVersion displayName color publisher =>
      [.admitPeer c ⟨protocolVersion, replayVersion, appVersion, displayName, color, publisher⟩]
    | .ping nonce millis => [.send c (.pong nonce millis)]
    | _ => protocolError c "expected Hello first"
  else handleAdmitted c (h.conn c).peerId bad gap m

/-- Do a job as `t`.  `full` says whether a queue that is pushed to has no room.  What comes back is put
in place of the job. -/
def Job.exec (full : Bool) (t : HostThread) : Job → Host → List Job × Host
  | register c, h => ([], { h with listed := h.listed ++ [c] })
  | send c m, h => ([], h.onConn c (·.push full (.message m)))
  | pushTo c item, h =>
    if full ∧ ¬ (h.conn c).closing then ([.close c .tooSlow false], h)
    else ([], h.onConn c (·.push full item))
  | pushToPeer peer item, h => ((h.connFor peer).toList.map (pushTo · item), h)
  | broadcast item except, h =>
    ((h.admittedConns.filter fun c ↦ (h.conn c).peerId ≠ except).map (pushTo · item),
      match item with
      | .message (.peerLeft peer _) =>
        { h with past := { h.past with announced := peer :: h.past.announced } }
      | _ => h)
  | publish p, h =>
    ((h.admittedConns.filter fun c ↦ p.target = 0 ∨ (h.conn c).peerId = p.target).map
      (pushTo · p.item), h)
  | askSnapshot publisher, h =>
    ((h.connFor publisher).toList.map (send · (.requestSnapshot hostPeerId publisher)), h)
  | close c reason flush, h =>
    if (h.conn c).closing then ([], h) else ([leaving c reason], h.onConn c (·.beginClose flush))
  | leaving c reason, h => ([unlist c (h.conn c).peerId reason], h)
  | unlist c peer reason, h =>
    (if peer = 0 then [] else [notify (.left peer reason), departed peer reason],
      { h with listed := h.listed.filter (· ≠ c) })
  | departed peer reason, h =>
    ((h.roster.partners peer).flatMap (fun partner ↦
        [deliverLink partner (.unlink peer partner .peerLeft), announceLink peer partner false]) ++
      [broadcast (.message (.peerLeft peer reason)) peer],
      { h with
        roster := h.roster.depart peer
        past := { h.past with departed := peer :: h.past.departed } })
  | deliverLink target m, h =>
    if target = hostPeerId then ([], { h with events := h.events ++ [.link m] })
    else
      match h.connFor target with
      | none => ([], h)
      | some c =>
        if full ∧ ¬ (h.conn c).closing then ([close c .tooSlow false], h)
        else ([], h.onConn c (·.pushUrgent full m))
  | announceLink a b linked, h =>
    ([broadcast (.message (linkNews a b linked)) 0, notify (.link (linkNews a b linked))], h)
  | notify event, h => ([], { h with events := h.events ++ [event] })
  | routeLink sender target m, h => PlayTogether.routeLink config sender target m h
  | requestOurs sender target nonce theirs m, h =>
    ([recordRequest sender target nonce theirs ((h.consoleOf config sender).getD .unknown) m], h)
  | recordRequest sender target nonce theirs ours m, h =>
    PlayTogether.recordRequest sender target nonce theirs ours m h
  | admitPeer c hello, h =>
    match helloRefusal config hello with
    | some (reason, text) => (refuse c reason text, h)
    | none =>
      let compat := followCompatibility hello.publisher.metadata config.own.publisher.metadata
      -- everyone starts from the host's save state
      if h.startState.isSome ∧ compat ≠ .ok then
        let why := describeIncompatibility "The host" compat
        (refuse c .startStateMismatch
          s!"{why} Everyone in this session starts from the host's save state.", h)
      else ([admitLocked c hello h.startState], h)
  | admitLocked c hello start, h => PlayTogether.admitLocked config full t c hello start h
  | admitPause c, h => ([], h.onConn c (·.push full (.message h.syncPause.message)))
  | admitSpeed c, h => ([], h.onConn c (·.push full (.message (.linkSpeed h.linkSpeed))))
  | admitStart c start, h =>
    ([], match start with
      | some data => h.onConn c (·.push full (.startState data))
      | none => h)
  | admitVisible c participant, h =>
    ([], { h.onConn c (·.admitAs participant) with
        holder := none
        past := { h.past with joined := participant :: h.past.joined } })
  | notePause sender paused, h =>
    if h.syncPause.enabled ∧ (sender = hostPeerId ∨ ¬ h.syncPause.hostOnly) then
      (broadcast (.message (.pause sender paused)) (if sender = hostPeerId then 0 else sender) ::
          if sender = hostPeerId then [] else [notify (.pauseChanged sender paused)],
        { h with syncPause := { h.syncPause with paused } })
    else ([], h)
  | storePause state, h =>
    ([broadcast (.message state.message) 0], { h with syncPause := state })
  | storeSpeed speed, h =>
    ([broadcast (.message (.linkSpeed speed)) 0], { h with linkSpeed := speed })
  | storeStart start, h =>
    ([broadcast (startItem start) 0], { h with startState := start })
  | kick peer, h =>
    (match h.connFor peer with
      | some c => [send c (.peerLeft peer .kicked), close c .kicked true]
      | none => [],
      h)
  | sendLink m, h =>
    (if m.target = hostPeerId ∨ m.target = 0 ∨ h.connFor m.target = none then []
      else [routeLink hostPeerId m.target (Message.fromLink hostPeerId m)],
      h)

/-! ## The machine -/

/-- What the host's frontend asks of the session. -/
inductive HostCall
  | setSyncPause (state : SyncPause)
  | setLinkSpeed (speed : Speed)
  | sendPause (paused : Bool)
  | setStartState (start : Option StartStateData)
  | sendResetAll (raceId countdownMillis : UInt32)
  | requestSnapshot (publisher : PeerId)
  | kick (peer : PeerId)
  | sendLink (m : LinkMessage)

def HostCall.job : HostCall → Job
  | setSyncPause state => .storePause state
  | setLinkSpeed speed => .storeSpeed speed
  | sendPause paused => .notePause hostPeerId paused
  | setStartState start => .storeStart start
  | sendResetAll raceId countdownMillis => .broadcast (.message (.resetAll raceId countdownMillis)) 0
  | requestSnapshot publisher => .askSnapshot publisher
  | kick peer => .kick peer
  | sendLink m => .sendLink m

namespace Host

/-- What happens around the host. -/
inductive Event
  /-- A connection comes in. -/
  | connect
  | receive (c : Nat) (m : Message) (bad : Option String) (gap : Bool)
  /-- The reader of a connection finds it broken, silent, or sending nonsense. -/
  | lose (c : Nat) (reason : LeaveReason)
  | garble (c : Nat) (text : String)
  /-- The writer of a connection. -/
  | drain (c : Nat) (ping : Option (UInt32 × UInt64))
  | takeUrgent (c : Nat)
  | write (c : Nat)
  | writeFails (c : Nat)
  /-- The timer finds a connection that says no `Hello`. -/
  | timeout (c : Nat)
  | call (call : HostCall)
  | publish (p : Publication)
  /-- A thread does its next job. -/
  | advance (t : HostThread) (full : Bool)

/-- Give an idle thread something to do. -/
def start (t : HostThread) (jobs : List Job) (h : Host) : Host :=
  if h.threads t = [] then { h with threads := Function.update h.threads t jobs } else h

/-- A job that has to wait for the lock. -/
def Blocked (t : HostThread) (job : Job) (h : Host) : Prop :=
  job.needsLock ∧ h.holder ≠ none ∧ h.holder ≠ some t

instance (t : HostThread) (job : Job) (h : Host) : Decidable (h.Blocked t job) :=
  inferInstanceAs (Decidable (_ ∧ _))

/-- A thread does its next job. -/
def advance (t : HostThread) (full : Bool) (h : Host) : Host :=
  match h.threads t with
  | [] => h
  | job :: rest =>
    if h.Blocked t job then h
    else
      let (jobs, h') := job.exec config full t h
      { h' with threads := Function.update h.threads t (jobs ++ rest) }

/-- What happens at an event.  A reader that finds its connection closing handles nothing more. -/
def step : Event → Host → Host
  | .connect, h =>
    if h.threads .accept = [] then
      { h with
        accepted := h.accepted + 1
        threads := Function.update h.threads .accept [.register h.accepted] }
    else h
  | .receive c m bad gap, h =>
    if c < h.accepted ∧ ¬ (h.conn c).closing then
      h.start (.reader c) (handleMessage c bad gap m h)
    else h
  | .lose c reason, h =>
    if c < h.accepted then h.start (.reader c) [.close c reason false] else h
  | .garble c text, h =>
    if c < h.accepted then h.start (.reader c) (protocolError c text) else h
  | .drain c ping, h =>
    if (h.conn c).writing = [] then
      h.onConn c (·.drain (if (h.conn c).closing then none else ping))
    else h
  | .takeUrgent c, h => if (h.conn c).writing ≠ [] then h.onConn c (·.takeUrgent) else h
  | .write c, h => h.onConn c (·.write)
  | .writeFails c, h =>
    if c < h.accepted then h.start (.writer c) [.close c .ioError false] else h
  | .timeout c, h =>
    if c ∈ h.listed ∧ ¬ (h.conn c).Admitted then h.start .tick [.close c .timeout false] else h
  | .call call, h => h.start .frontend [call.job]
  | .publish p, h => h.start .publisher [.publish p]
  | .advance t full, h => h.advance config t full

end Host

end handlers

end PlayTogether

end SuperShuckie
