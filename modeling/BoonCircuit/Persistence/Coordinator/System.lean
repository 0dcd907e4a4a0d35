import BoonCircuit.Persistence.Coordinator.Worker

/-!
# Interleavings of callers and worker

The state of the whole coordinator, the events that callers and the worker can take
in it, and the runs they make.  An event that would block is not enabled.  The
history records the accepted turns and the acknowledged commits and is read by no
event.
-/

namespace BoonCircuit.Persistence.Coordinator

open Data Lib

/-- Where the holder of the control lock stands. -/
inductive ControlPhase where
  | free
  /-- Admission is paused, reservations are still outstanding. -/
  | draining (request : ControlRequest)
  | sending (request : ControlRequest)
  | waiting (request : ControlRequest)

structure History where
  accepted : List AuthorityTurn
  committed : List CheckpointBatch

structure System (D : Type) where
  shared : SharedState
  channel : Channel WorkerMessage
  worker : WorkerState D
  control : ControlPhase
  reply : Option ControlReply
  /-- The number of reservations that callers hold. -/
  held : Nat
  /-- The coordinator itself is dropped, reservations may remain. -/
  dropped : Bool
  history : History

inductive Event where
  | tryReserveTurn
  | enqueue (turn : AuthorityTurn)
  | dropReservation
  | tryPutContentArtifact (artifact : ContentArtifact)
  | tryLoadContentArtifact (id : ContentArtifactId)
  | takeStoreCompletions
  | takeLoadCompletions
  | requestControl (request : ControlRequest)
  | reservationsDrained
  | sendControl
  | finishControl
  | dropCoordinator
  | receive
  | collect
  | finishCollecting
  | flush
  | markDurable
  | storeArtifact
  | handle
  | leaveLoop
  | closeAdmission

namespace System

variable {D : Type} (system : System D)

/-- The worker moves to another phase. -/
def goto (phase : WorkerPhase) : System D :=
  { system with worker := { system.worker with phase := phase } }

def tryReserveTurn (system : System D) : Option (System D) :=
  if system.dropped then none
  else
    match system.shared.tryReserveTurn with
    | .ok shared => some { system with shared := shared, held := system.held + 1 }
    | .error _ => some system

def enqueue (system : System D) (turn : AuthorityTurn) : Option (System D) :=
  if system.held = 0 then none
  else
    let (result, shared, channel) := system.shared.enqueue system.channel turn
    some { system with
      shared := shared
      channel := channel
      held := system.held - 1
      history := { system.history with
        accepted :=
          if result matches .ok _ then system.history.accepted ++ [turn]
          else system.history.accepted } }

def dropReservation : Option (System D) :=
  if system.held = 0 then none
  else some { system with
    shared := system.shared.releaseReservation
    held := system.held - 1 }

def tryPutContentArtifact (system : System D) (artifact : ContentArtifact) : Option (System D) :=
  if system.dropped then none
  else
    let (_, shared, channel) := system.shared.tryPutContentArtifact system.channel artifact
    some { system with shared := shared, channel := channel }

def tryLoadContentArtifact (system : System D) (id : ContentArtifactId) : Option (System D) :=
  if system.dropped then none
  else
    let (_, shared, channel) := system.shared.tryLoadContentArtifact system.channel id
    some { system with shared := shared, channel := channel }

def takeStoreCompletions : System D :=
  { system with shared := { system.shared with contentArtifactCompletions := [] } }

def takeLoadCompletions : System D :=
  { system with shared := { system.shared with contentArtifactLoadCompletions := [] } }

/-- `control_request` up to its wait for the outstanding reservations. -/
def requestControl (request : ControlRequest) : Option (System D) :=
  match system.control, system.dropped with
  | .free, false =>
    if system.shared.isClosed then some system
    else some { system with
      shared := { system.shared with
        admission := { system.shared.admission with accepting := false } }
      control := .draining request }
  | _, _ => none

def reservationsDrained : Option (System D) :=
  match system.control with
  | .draining request =>
    if system.shared.admission.reservations = 0 then
      some { system with control := .sending request }
    else none
  | _ => none

/-- The control lock is released because the worker has gone. -/
def abandonControl : System D :=
  { system with shared := system.shared.markWorkerExited, control := .free }

def sendControl : Option (System D) :=
  match system.control with
  | .sending request =>
    match system.channel.trySend (.control request) with
    | .ok sent => some { system with channel := sent, control := .waiting request }
    -- a full channel blocks the sender
    | .error .full => none
    | .error .disconnected => some system.abandonControl
  | _ => none

/-- Admission after a reply has arrived. -/
def admissionAfterReply (shared : SharedState) (reply : ControlReply) : SharedState :=
  if reply matches .shutdown (.ok _) then shared.closeAdmission
  else if !shared.admission.closed && shared.workerAlive then
    { shared with admission := { shared.admission with accepting := true } }
  else shared

def finishControl : Option (System D) :=
  match system.control, system.reply with
  | .waiting _, some reply =>
    some { system with
      shared := admissionAfterReply system.shared reply
      control := .free
      reply := none }
  | .waiting _, none => if system.channel.connected then none else some system.abandonControl
  | _, _ => none

def dropCoordinator : Option (System D) :=
  match system.control with
  | .free => some { system with dropped := true }
  | _ => none

/-- The worker has taken a message in its main loop. -/
def takeMessage (channel : Channel WorkerMessage) : WorkerMessage → System D
  | .turn turn =>
    { system with
      channel := channel
      worker := { system.worker with
        pending := system.worker.pending ++ [turn]
        phase := .collecting [] } }
  | .artifact work =>
    { system with
      channel := channel
      worker := { system.worker with phase := .storing [work] } }
  | .control request =>
    { system with
      channel := channel
      worker := { system.worker with phase := .flushing (.control request) } }

def receive (system : System D) : Option (System D) :=
  match system.worker.phase, system.worker.deferred, system.channel.receive with
  | .receiving, some request, _ =>
    some { system with
      worker := { system.worker with
        deferred := none
        phase := .flushing (.control request) } }
  | .receiving, none, some (message, channel) => some (system.takeMessage channel message)
  | .receiving, none, none =>
    -- every sender is gone
    if system.dropped ∧ system.held = 0 then some (system.goto (.flushing .stop)) else none
  | _, _, _ => none

/-- The worker has taken a message while it collects a batch. -/
def collectMessage (channel : Channel WorkerMessage)
    (works : List AsyncArtifact) : WorkerMessage → System D
  | .turn turn =>
    { system with
      channel := channel
      worker := { system.worker with pending := system.worker.pending ++ [turn] } }
  | .artifact work =>
    { system with
      channel := channel
      worker := { system.worker with phase := .collecting (works ++ [work]) } }
  | .control request =>
    { system with
      channel := channel
      worker := { system.worker with
        deferred := some request
        phase := .flushing (.artifacts works) } }

section Worker

variable (sha256 : List UInt8 → Digest) (config : PersistenceWorkerConfig)
variable (execute : D → PersistenceCommand → PersistenceResult × D) (system : System D)

def collect : Option (System D) :=
  match system.worker.phase, system.channel.receive with
  | .collecting works, some (message, channel) =>
    if system.worker.pending.length < config.maxBatchTurns then
      some (system.collectMessage channel works message)
    else none
  | _, _ => none

/-- The batch is full, the channel is empty or the delay is over. -/
def finishCollecting : Option (System D) :=
  match system.worker.phase with
  | .collecting works =>
    if config.maxBatchTurns ≤ system.worker.pending.length ∨ system.channel.queue = [] ∨
        config.coalesceDelay ≠ 0 then
      some (system.goto (.flushing (.artifacts works)))
    else none
  | _ => none

/-- The worker goes on after a flush. -/
def afterFlush (outcome : Outcome Unit) : AfterFlush → System D
  | .artifacts works => system.goto (.storing works)
  | .control request =>
    match outcome with
    | .ok _ => system.goto (.handling request)
    | .error error => { system.goto .receiving with reply := some (request.errorReply error) }
  | .stop =>
    let (_, driver) := execute system.worker.driver .shutdown
    { system with worker := { system.worker with driver := driver, phase := .stopping } }

def flush : Option (System D) :=
  match system.worker.phase with
  | .flushing next =>
    let (result, driver, shared) := flushPending sha256 execute system.worker system.shared
    let flushed := { system with
      shared := shared
      worker := { system.worker with driver := driver } }
    match result with
    | .done outcome => some (flushed.afterFlush execute outcome next)
    | .acknowledged batch ack => some (flushed.goto (.acknowledged next batch ack))
  | _ => none

/-- The end of `flush_pending` for an acknowledged commit. -/
def markDurable (system : System D) : Option (System D) :=
  match system.worker.phase with
  | .acknowledged next batch ack =>
    let (outcome, shared) := system.shared.markDurable ack.epoch ack.throughTurnSequence
    let marked := { system with
      shared := shared
      history := { system.history with committed := system.history.committed ++ [batch] } }
    match outcome with
    | .error error => some (marked.afterFlush execute (.error error) next)
    | .ok _ =>
      some (System.afterFlush execute { marked with
        worker := { marked.worker with
          pending := []
          durable := { marked.worker.durable with
            epoch := ack.epoch
            throughTurnSequence := ack.throughTurnSequence } } } (.ok ()) next)
  | _ => none

def storeArtifact : Option (System D) :=
  match system.worker.phase with
  | .storing [] => some (system.goto .receiving)
  | .storing (work :: works) =>
    let (worker, shared) := handleAsyncArtifact execute system.worker system.shared work
    some { system with
      shared := shared
      worker := { worker with phase := .storing works } }
  | _ => none

/-- What an answered request adds to the history. -/
def historyAfter (request : ControlRequest) (reply : ControlReply) : History :=
  match request, reply with
  | .immediateTurn turn, .immediateTurn (.ok ack) =>
    { accepted := system.history.accepted ++ [turn]
      committed := system.history.committed ++
        [system.worker.durable.immediateCheckpoint sha256 ack.epoch turn] }
  | _, _ => system.history

/-- Where the worker goes after it has answered. -/
def phaseAfterReply (reply : ControlReply) : WorkerPhase :=
  if reply matches .shutdown (.ok _) then .stopping else .receiving

def handle : Option (System D) :=
  match system.worker.phase with
  | .handling request =>
    let (reply, worker, shared) :=
      handleControl sha256 execute system.worker system.shared request
    some { system with
      shared := shared
      worker := { worker with phase := phaseAfterReply reply }
      reply := some reply
      history := system.historyAfter sha256 request reply }
  | _ => none

def leaveLoop : Option (System D) :=
  match system.worker.phase with
  | .stopping => some
      { system.goto .closing with shared := { system.shared with workerAlive := false } }
  | _ => none

def closeAdmission (system : System D) : Option (System D) :=
  match system.worker.phase with
  | .closing => some
      { system.goto .returned with
        shared := system.shared.closeAdmission
        channel := system.channel.disconnect }
  | _ => none

def step : Event → Option (System D)
  | .tryReserveTurn => system.tryReserveTurn
  | .enqueue turn => system.enqueue turn
  | .dropReservation => system.dropReservation
  | .tryPutContentArtifact artifact => system.tryPutContentArtifact artifact
  | .tryLoadContentArtifact id => system.tryLoadContentArtifact id
  | .takeStoreCompletions => some system.takeStoreCompletions
  | .takeLoadCompletions => some system.takeLoadCompletions
  | .requestControl request => system.requestControl request
  | .reservationsDrained => system.reservationsDrained
  | .sendControl => system.sendControl
  | .finishControl => system.finishControl
  | .dropCoordinator => system.dropCoordinator
  | .receive => system.receive
  | .collect => system.collect config
  | .finishCollecting => system.finishCollecting config
  | .flush => system.flush sha256 execute
  | .markDurable => system.markDurable execute
  | .storeArtifact => system.storeArtifact execute
  | .handle => system.handle sha256 execute
  | .leaveLoop => system.leaveLoop
  | .closeAdmission => system.closeAdmission

/-- One event takes a system to another one. -/
def Steps (system next : System D) : Prop :=
  ∃ event, system.step sha256 config execute event = some next

/-- The system after some events, if each of them is enabled in its turn. -/
def run (events : List Event) : Option (System D) :=
  events.foldlM (fun system event => system.step sha256 config execute event) system

theorem steps_of_run {system next : System D} (events : List Event)
    (ran : system.run sha256 config execute events = some next) :
    Relation.ReflTransGen (Steps sha256 config execute) system next :=
  Checks.reflTransGen_of_foldlM ran

end Worker

end System

section Startup

variable {D : Type} (execute : D → PersistenceCommand → PersistenceResult × D)

def loadDriver (driver : D) (application : ApplicationIdentity) :
    Outcome (Option RestoreImage) × D :=
  match execute driver (.load ⟨application, none⟩) with
  | (.loaded (.ok (some image)), driver) =>
    if image.application ≠ application then (.error .identityMismatch, driver)
    else (.ok (some image), driver)
  | (.loaded (.ok none), driver) => (.ok none, driver)
  | (.loaded (.error error), driver) => (.error error, driver)
  | (_, driver) => (.error (wrongResult "Load"), driver)

def initializeDriver (driver : D) (initialImage : RestoreImage) : Outcome RestoreImage × D :=
  match execute driver (.initializeImage initialImage) with
  | (.initialized (.ok _), driver) => (.ok initialImage, driver)
  | (.initialized (.error error), driver) => (.error error, driver)
  | (_, driver) => (.error (wrongResult "Initialize"), driver)

def startDriver (driver : D) (initialImage : RestoreImage) : Outcome RestoreImage × D :=
  match loadDriver execute driver initialImage.application with
  | (.ok (some image), driver) => (.ok image, driver)
  | (.ok none, driver) => initializeDriver execute driver initialImage
  | (.error error, driver) => (.error error, driver)

/-- The coordinator after a startup with the given image. -/
def System.started (config : PersistenceWorkerConfig) (driver : D) (image : RestoreImage) :
    System D where
  shared := (SharedState.new config.queueCapacity).finishStartup image
  channel := .empty WorkerMessage config.queueCapacity
  worker := ⟨driver, .fromImage image, [], none, .receiving⟩
  control := .free
  reply := none
  held := 0
  dropped := false
  history := ⟨[], []⟩

inductive PersistenceWorkerStartError where
  | invalidConfig (detail : String)
  | store (error : StoreError)

def validateWorkerConfig (config : PersistenceWorkerConfig) :
    Except PersistenceWorkerStartError Unit :=
  if config.queueCapacity = 0 then .error (.invalidConfig "queue_capacity must be positive")
  else if config.maxBatchTurns = 0 then
    .error (.invalidConfig "max_batch_turns must be positive")
  else .ok ()

/-- `PersistenceCoordinator::start`. -/
def System.start (config : PersistenceWorkerConfig) (driver : D) (initialImage : RestoreImage) :
    Except PersistenceWorkerStartError (System D) :=
  match validateWorkerConfig config with
  | .error error => .error error
  | .ok _ =>
    match startDriver execute driver initialImage with
    | (.ok image, driver) => .ok (.started config driver image)
    | (.error error, _) => .error (.store error)

end Startup

end BoonCircuit.Persistence.Coordinator
