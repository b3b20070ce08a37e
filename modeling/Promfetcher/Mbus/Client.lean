import Promfetcher.Foundation.Transition
import Promfetcher.Foundation.Url

/-!
# The callbacks of the NATS connection

`mbus.Connect`, once `options.Connect` has succeeded, beside the callbacks that
`natsOptions` installs. The NATS client puts the callbacks of outages and of
recoveries into a queue, and its dispatcher runs them one at a time. Each
`DisconnectedCB` starts a ticker goroutine, which a later `ReconnectedCB` stops
over `notDisconnected`; `RoutesFetcher.Run` receives what it sends to
`reconnected`. Both channels are unbuffered, so a send and its receive are one
step.

A panic, of a callback or of a ticker goroutine, ends the run. The receiver
starts after `Connect` has returned and never ends.
-/

namespace Promfetcher

open Foundation

/-- What `ConnectedUrl` and `ConnectedAddr` tell of a server. -/
structure Peer where
  url : GoString
  addr : GoString
  deriving DecidableEq, Repr

/-- The callbacks that the NATS client queues. -/
inductive NatsCallback where
  | disconnected
  | reconnected
  deriving DecidableEq, Repr

/-- The next statement of `Connect`. -/
inductive ConnectAt where
  | connectedUrl
  | connectedAddr (natsHostStr : GoString)
  | storeHost (natsHostStr natsAddrStr : GoString)
  | storeAddr (natsAddrStr : GoString)
  | returned
  deriving DecidableEq, Repr

/-- The next statement of the callback that runs. -/
inductive CallbackAt where
  | idle
  | loadHost
  | loadAddr
  | startTicker
  | notDisconnected
  | connectedUrl
  | connectedAddr (natsHostStr : GoString)
  | storeHost (natsHostStr natsAddrStr : GoString)
  | storeAddr (natsAddrStr : GoString)
  | reconnected
  deriving DecidableEq, Repr

/-- What `RoutesFetcher.Run` does next. -/
inductive ReceiverAt where
  | starting
  | receiving
  | handling
  deriving DecidableEq, Repr

/-- The connection, the callbacks that wait, and the goroutines that they have started. -/
structure NatsConnection where
  /-- The server, while the connection is up. -/
  conn : Option Peer
  natsHost : Option GoString := none
  natsAddr : Option GoString := none
  connect : ConnectAt := .connectedUrl
  queue : List NatsCallback := []
  callback : CallbackAt := .idle
  /-- The ticker goroutines that have not reached their select. -/
  starting : ℕ := 0
  /-- The ticker goroutines in their select. -/
  selecting : ℕ := 0
  receiver : ReceiverAt := .starting
  panicked : Bool := false
  deriving DecidableEq, Repr

/-- What may happen next, to the connection or in a goroutine. -/
inductive NatsEvent where
  | outage
  | recovery (peer : Peer)
  | connect
  /-- The dispatcher takes the first callback of its queue. -/
  | dispatch
  | callback
  /-- A ticker goroutine makes its ticker and reaches its select. -/
  | ticker
  | tick
  /-- A ticker goroutine receives from `notDisconnected`, and returns. -/
  | stop
  /-- `Run` receives from `reconnected`. -/
  | receive
  | receiver
  deriving DecidableEq, Repr

/-- The first statement of a callback. -/
def NatsCallback.first : NatsCallback → CallbackAt
  | .disconnected => .loadHost
  | .reconnected => .notDisconnected

/-- The events of the network, which nothing in the process brings about. -/
def NatsEvent.outside : NatsEvent → Bool
  | .outage | .recovery _ => true
  | _ => false

/-- The steps of the process that do something. A tick only logs. -/
def NatsEvent.works : NatsEvent → Bool
  | .outage | .recovery _ | .tick => false
  | _ => true

namespace NatsConnection

/-- `ConnectedUrl`: empty while the connection is down. -/
def connectedUrl (state : NatsConnection) : GoString :=
  (state.conn.map Peer.url).getD []

/-- `ConnectedAddr`: the address of the server, empty while the connection is down. -/
def connectedAddr (state : NatsConnection) : GoString :=
  (state.conn.map Peer.addr).getD []

/-- The ping goroutines that have not returned. -/
def live (state : NatsConnection) : ℕ :=
  state.starting + state.selecting

section

variable [NetRules]

/-- The host of the URL, or no host if the URL is malformed. -/
def natsHostStr (natsURL : GoString) : GoString :=
  ((Url.parse natsURL).map Url.host).getD []

/-- The next statement of `Connect`. -/
def stepConnect (state : NatsConnection) : Option NatsConnection :=
  match state.connect with
  | .connectedUrl =>
      some { state with connect := .connectedAddr (natsHostStr state.connectedUrl) }
  | .connectedAddr host => some { state with connect := .storeHost host state.connectedAddr }
  | .storeHost host addr => some { state with natsHost := some host, connect := .storeAddr addr }
  | .storeAddr addr => some { state with natsAddr := some addr, connect := .returned }
  | .returned => none

/-- The next statement of a callback, unless it is a send. -/
def stepCallback (state : NatsConnection) : Option NatsConnection :=
  match state.callback with
  | .loadHost =>
      match state.natsHost with
      | some _ => some { state with callback := .loadAddr }
      -- the type assertion on a value that was never stored
      | none => some { state with panicked := true }
  | .loadAddr =>
      match state.natsAddr with
      | some _ => some { state with callback := .startTicker }
      | none => some { state with panicked := true }
  | .startTicker => some { state with callback := .idle, starting := state.starting + 1 }
  | .connectedUrl =>
      some { state with callback := .connectedAddr (natsHostStr state.connectedUrl) }
  | .connectedAddr host => some { state with callback := .storeHost host state.connectedAddr }
  | .storeHost host addr => some { state with natsHost := some host, callback := .storeAddr addr }
  | .storeAddr addr => some { state with natsAddr := some addr, callback := .reconnected }
  | .idle | .notDisconnected | .reconnected => none

/-- A ticker goroutine, up to its select: `time.NewTicker` panics unless the interval is
positive. -/
def stepTicker (pingInterval : ℤ) (state : NatsConnection) : Option NatsConnection :=
  match state.starting with
  | 0 => none
  | starting + 1 =>
      if 0 < pingInterval then
        some { state with starting := starting, selecting := state.selecting + 1 }
      else some { state with panicked := true }

/-- What `Run` does before it receives again. -/
def stepReceiver (state : NatsConnection) : Option NatsConnection :=
  match state.receiver, state.connect with
  | .starting, .returned | .handling, _ => some { state with receiver := .receiving }
  | _, _ => none

/-- One event, if it can happen. -/
def step (pingInterval : ℤ) (state : NatsConnection) (event : NatsEvent) :
    Option NatsConnection :=
  if state.panicked then none
  else match event with
  | .outage =>
      state.conn.map fun _ =>
        { state with conn := none, queue := state.queue ++ [.disconnected] }
  | .recovery peer =>
      match state.conn with
      | none => some { state with conn := some peer, queue := state.queue ++ [.reconnected] }
      | some _ => none
  | .connect => state.stepConnect
  | .dispatch =>
      match state.callback, state.queue with
      | .idle, callback :: queue => some { state with queue := queue, callback := callback.first }
      | _, _ => none
  | .callback => state.stepCallback
  | .ticker => state.stepTicker pingInterval
  | .tick => if 0 < state.selecting then some state else none
  | .stop =>
      match state.callback, state.selecting with
      | .notDisconnected, selecting + 1 =>
          some { state with callback := .connectedUrl, selecting := selecting }
      | _, _ => none
  | .receive =>
      match state.callback, state.receiver with
      | .reconnected, .receiving => some { state with callback := .idle, receiver := .handling }
      | _, _ => none
  | .receiver => state.stepReceiver

/-- The runs from the return of `options.Connect`. -/
def system (pingInterval : ℤ) : System NatsConnection NatsEvent where
  initial state := ∃ peer, state = { conn := some peer }
  step before event after := before.step pingInterval event = some after

/-- No callback waits or runs. -/
def Settled (state : NatsConnection) : Prop :=
  state.queue = [] ∧ state.callback = .idle

/-- What the callbacks and the ticker goroutines promise. A run of the process, in which outages
and recoveries stop some time, comes to a state in which nothing works any more: then no callback
waits. -/
structure CallbacksSafe (pingInterval : ℤ) (state : NatsConnection) : Prop where
  running : state.panicked = false
  oneTicker : state.callback = .notDisconnected → state.live = 1
  tickers : state.Settled → state.live = if state.conn = none then 1 else 0
  progress : state.Settled ∨
    ∃ event : NatsEvent, event.works = true ∧ (state.step pingInterval event).isSome = true
  bounded : ∃ bound, ∀ steps last, (system pingInterval).Run state steps last →
    steps.countP (fun step => step.2.works) ≤
      bound + 8 * steps.countP fun step => step.2.outside

end

end NatsConnection

/-- `Connect` has stored the host. -/
def ConnectAt.storedHost : ConnectAt → Bool
  | .storeAddr _ | .returned => true
  | _ => false

/-- `Connect` has stored both values. -/
def ConnectAt.storedAddr : ConnectAt → Bool
  | .returned => true
  | _ => false

namespace NatsConnection

/-- `DisconnectedCB` loads what `Connect` has stored, and a ticker has a positive interval. -/
structure Prepared (pingInterval : ℤ) (state : NatsConnection) (event : NatsEvent) : Prop where
  loadHost : event = .callback → state.callback = .loadHost → state.connect.storedHost = true
  loadAddr : event = .callback → state.callback = .loadAddr → state.connect.storedAddr = true
  ticker : event = .ticker → 0 < pingInterval

/-! ## What a step does -/

section

variable [NetRules]

/-- The steps, with what each of them needs. -/
inductive Moves (pingInterval : ℤ) (state : NatsConnection) : NatsEvent → NatsConnection → Prop
  where
  | outage {peer : Peer} (up : state.conn = some peer) :
      Moves pingInterval state .outage
        { state with conn := none, queue := state.queue ++ [.disconnected] }
  | recovery (peer : Peer) (down : state.conn = none) :
      Moves pingInterval state (.recovery peer)
        { state with conn := some peer, queue := state.queue ++ [.reconnected] }
  | connectConnectedUrl (connect : state.connect = .connectedUrl) :
      Moves pingInterval state .connect
        { state with connect := .connectedAddr (natsHostStr state.connectedUrl) }
  | connectConnectedAddr {host : GoString} (connect : state.connect = .connectedAddr host) :
      Moves pingInterval state .connect
        { state with connect := .storeHost host state.connectedAddr }
  | connectStoreHost {host addr : GoString} (connect : state.connect = .storeHost host addr) :
      Moves pingInterval state .connect
        { state with natsHost := some host, connect := .storeAddr addr }
  | connectStoreAddr {addr : GoString} (connect : state.connect = .storeAddr addr) :
      Moves pingInterval state .connect
        { state with natsAddr := some addr, connect := .returned }
  | dispatch {callback : NatsCallback} {queue : List NatsCallback}
      (idle : state.callback = .idle) (queued : state.queue = callback :: queue) :
      Moves pingInterval state .dispatch
        { state with queue := queue, callback := callback.first }
  | loadHost {host : GoString} (callback : state.callback = .loadHost)
      (stored : state.natsHost = some host) :
      Moves pingInterval state .callback { state with callback := .loadAddr }
  | panicHost (callback : state.callback = .loadHost) (unstored : state.natsHost = none) :
      Moves pingInterval state .callback { state with panicked := true }
  | loadAddr {addr : GoString} (callback : state.callback = .loadAddr)
      (stored : state.natsAddr = some addr) :
      Moves pingInterval state .callback { state with callback := .startTicker }
  | panicAddr (callback : state.callback = .loadAddr) (unstored : state.natsAddr = none) :
      Moves pingInterval state .callback { state with panicked := true }
  | startTicker (callback : state.callback = .startTicker) :
      Moves pingInterval state .callback
        { state with callback := .idle, starting := state.starting + 1 }
  | connectedUrl (callback : state.callback = .connectedUrl) :
      Moves pingInterval state .callback
        { state with callback := .connectedAddr (natsHostStr state.connectedUrl) }
  | connectedAddr {host : GoString} (callback : state.callback = .connectedAddr host) :
      Moves pingInterval state .callback
        { state with callback := .storeHost host state.connectedAddr }
  | storeHost {host addr : GoString} (callback : state.callback = .storeHost host addr) :
      Moves pingInterval state .callback
        { state with natsHost := some host, callback := .storeAddr addr }
  | storeAddr {addr : GoString} (callback : state.callback = .storeAddr addr) :
      Moves pingInterval state .callback
        { state with natsAddr := some addr, callback := .reconnected }
  | ticker {starting : ℕ} (some : state.starting = starting + 1) (positive : 0 < pingInterval) :
      Moves pingInterval state .ticker
        { state with starting := starting, selecting := state.selecting + 1 }
  | panicTicker {starting : ℕ} (some : state.starting = starting + 1)
      (nonpositive : ¬0 < pingInterval) :
      Moves pingInterval state .ticker { state with panicked := true }
  | tick : Moves pingInterval state .tick state
  | stop {selecting : ℕ} (callback : state.callback = .notDisconnected)
      (some : state.selecting = selecting + 1) :
      Moves pingInterval state .stop
        { state with callback := .connectedUrl, selecting := selecting }
  | receive (callback : state.callback = .reconnected) (receiver : state.receiver = .receiving) :
      Moves pingInterval state .receive
        { state with callback := .idle, receiver := .handling }
  | startReceiver (receiver : state.receiver = .starting) (connect : state.connect = .returned) :
      Moves pingInterval state .receiver { state with receiver := .receiving }
  | handled (receiver : state.receiver = .handling) :
      Moves pingInterval state .receiver { state with receiver := .receiving }

variable {pingInterval : ℤ} {before after : NatsConnection} {event : NatsEvent}

theorem moves_of_connect (moves : before.stepConnect = some after) :
    Moves pingInterval before .connect after := by
  rw [stepConnect] at moves
  cases connect : before.connect <;>
    simp only [connect, Option.some.injEq, reduceCtorEq] at moves <;>
    subst moves
  · exact .connectConnectedUrl connect
  · exact .connectConnectedAddr connect
  · exact .connectStoreHost connect
  · exact .connectStoreAddr connect

theorem moves_of_callback (moves : before.stepCallback = some after) :
    Moves pingInterval before .callback after := by
  rw [stepCallback] at moves
  split at moves
  · next callback =>
      split at moves <;> cases moves
      · next stored => exact .loadHost callback stored
      · next unstored => exact .panicHost callback unstored
  · next callback =>
      split at moves <;> cases moves
      · next stored => exact .loadAddr callback stored
      · next unstored => exact .panicAddr callback unstored
  all_goals cases moves
  · next callback => exact .startTicker callback
  · next callback => exact .connectedUrl callback
  · next callback => exact .connectedAddr callback
  · next callback => exact .storeHost callback
  · next callback => exact .storeAddr callback

theorem moves_of_ticker (moves : before.stepTicker pingInterval = some after) :
    Moves pingInterval before .ticker after := by
  rw [stepTicker] at moves
  split at moves
  · cases moves
  · next starting some =>
      split at moves <;> cases moves
      · next positive => exact .ticker some positive
      · next nonpositive => exact .panicTicker some nonpositive

theorem moves_of_receiver (moves : before.stepReceiver = some after) :
    Moves pingInterval before .receiver after := by
  rw [stepReceiver] at moves
  split at moves <;> cases moves
  · next receiver connect => exact .startReceiver receiver connect
  · next receiver => exact .handled receiver

theorem moves_of_step (moves : before.step pingInterval event = some after) :
    before.panicked = false ∧ Moves pingInterval before event after := by
  unfold step at moves
  rw [Option.ite_none_left_eq_some, Bool.not_eq_true] at moves
  rcases moves with ⟨running, moves⟩
  refine ⟨running, ?_⟩
  cases event with
  | outage =>
      rcases Option.map_eq_some_iff.mp moves with ⟨peer, up, rfl⟩
      exact .outage up
  | recovery peer =>
      dsimp only at moves
      split at moves
      · next down =>
          cases moves
          exact .recovery peer down
      · cases moves
  | connect => exact moves_of_connect moves
  | dispatch =>
      dsimp only at moves
      split at moves
      · next idle queued =>
          cases moves
          exact .dispatch idle queued
      · cases moves
  | callback => exact moves_of_callback moves
  | ticker => exact moves_of_ticker moves
  | tick =>
      rw [Option.ite_none_right_eq_some] at moves
      rcases moves with ⟨_, ⟨⟩⟩
      exact .tick
  | stop =>
      dsimp only at moves
      split at moves
      · next selecting callback some =>
          cases moves
          exact .stop callback some
      · cases moves
  | receive =>
      dsimp only at moves
      split at moves
      · next callback receiver =>
          cases moves
          exact .receive callback receiver
      · cases moves
  | receiver => exact moves_of_receiver moves

end

end NatsConnection

/-! ## The queue and the ticker goroutines -/

/-- Whether a callback tells that the connection is down. -/
def NatsCallback.tellsDown : NatsCallback → Bool
  | .disconnected => true
  | .reconnected => false

/-- The callbacks of the queue alternate, from what has been told to what is the case. -/
def Follows (told : Bool) : List NatsCallback → Bool → Prop
  | [], down => told = down
  | callback :: queue, down =>
      told = !callback.tellsDown ∧ Follows callback.tellsDown queue down

theorem Follows.append {queue : List NatsCallback} {told : Bool} (callback : NatsCallback)
    (follows : Follows told queue !callback.tellsDown) :
    Follows told (queue ++ [callback]) callback.tellsDown := by
  induction queue generalizing told with
  | nil => exact ⟨follows, rfl⟩
  | cons first queue inductionHypothesis => exact ⟨follows.1, inductionHypothesis follows.2⟩

/-- How many ticker goroutines are alive while a callback is at a statement, `told` being what the
callbacks up to this one tell. -/
def CallbackAt.Balanced (live : ℕ) (told : Bool) : CallbackAt → Prop
  | .idle => live = told.toNat
  | .loadHost | .loadAddr | .startTicker => told = true ∧ live = 0
  | .notDisconnected => told = false ∧ live = 1
  | .connectedUrl | .connectedAddr _ | .storeHost _ _ | .storeAddr _ | .reconnected =>
      told = false ∧ live = 0

/-- The statements that a callback can be at before `Connect` has stored both values. -/
def CallbackAt.Early : CallbackAt → Prop
  | .idle | .loadHost | .loadAddr => True
  | _ => False

theorem NatsCallback.first_balanced (callback : NatsCallback) {live : ℕ} {told : Bool}
    (turns : told = !callback.tellsDown) (balanced : CallbackAt.idle.Balanced live told) :
    callback.first.Balanced live callback.tellsDown := by
  subst turns
  cases callback with
  | disconnected => exact ⟨rfl, balanced⟩
  | reconnected => exact ⟨rfl, balanced⟩

/-- A recovery is told only after a ticker goroutine has been started. -/
theorem NatsCallback.first_early (callback : NatsCallback) {told : Bool}
    (balanced : callback.first.Balanced 0 told) : callback.first.Early := by
  cases callback with
  | disconnected => trivial
  | reconnected => cases balanced.2

namespace NatsConnection

/-- What holds as long as no step is taken unprepared. -/
structure Sound (state : NatsConnection) : Prop where
  running : state.panicked = false
  balanced : ∃ told, Follows told state.queue state.conn.isNone ∧
    state.callback.Balanced state.live told
  host : state.natsHost.isSome = state.connect.storedHost
  addr : state.natsAddr.isSome = state.connect.storedAddr
  early : state.connect.storedAddr = false → state.live = 0 ∧ state.callback.Early

variable {before after : NatsConnection}

theorem sound_initial (peer : Peer) : Sound { conn := some peer } where
  running := rfl
  balanced := ⟨false, rfl, rfl⟩
  host := rfl
  addr := rfl
  early _ := ⟨rfl, trivial⟩

/-- A callback past its loads runs only after `Connect` has stored both values. -/
theorem Sound.stored (sound : Sound before) {statement : CallbackAt}
    (callback : before.callback = statement) (late : ¬statement.Early) :
    before.connect.storedAddr = true := by
  by_contra unstored
  exact late (callback ▸ (sound.early (Bool.not_eq_true _ ▸ unstored)).2)

/-- A step of a callback past its loads keeps what has been stored. -/
theorem Sound.of_late (sound : Sound before) {statement : CallbackAt}
    (callback : before.callback = statement) (late : ¬statement.Early)
    (running : after.panicked = false)
    (balanced : ∃ told, Follows told after.queue after.conn.isNone ∧
      after.callback.Balanced after.live told)
    (connect : after.connect = before.connect)
    (host : before.natsHost.isSome = true → after.natsHost.isSome = true)
    (addr : before.natsAddr.isSome = true → after.natsAddr.isSome = true) : Sound after := by
  have stored := sound.stored callback late
  have storedHost : before.connect.storedHost = true := by
    cases connect : before.connect <;> simp_all [ConnectAt.storedAddr, ConnectAt.storedHost]
  refine ⟨running, balanced, ?_, ?_, ?_⟩
  · rw [connect, storedHost]
    exact host (sound.host.trans storedHost)
  · rw [connect, stored]
    exact addr (sound.addr.trans stored)
  · intro unstored
    rw [connect, stored] at unstored
    cases unstored

section

variable [NetRules] {pingInterval : ℤ} {event : NatsEvent}

theorem Sound.step (sound : Sound before) (prepared : Prepared pingInterval before event)
    (moves : Moves pingInterval before event after) : Sound after := by
  rcases sound with ⟨running, ⟨told, follows, balanced⟩, host, addr, early⟩
  have sound : Sound before := ⟨running, ⟨told, follows, balanced⟩, host, addr, early⟩
  cases moves with
  | outage up =>
      have follows : Follows told before.queue false := by simpa [up] using follows
      exact ⟨running, ⟨told, follows.append .disconnected, balanced⟩, host, addr, early⟩
  | recovery peer down =>
      have follows : Follows told before.queue true := by simpa [down] using follows
      exact ⟨running, ⟨told, follows.append .reconnected, balanced⟩, host, addr, early⟩
  | connectConnectedUrl connect | connectConnectedAddr connect =>
      rw [connect] at host addr early
      exact ⟨running, ⟨told, follows, balanced⟩, host, addr, early⟩
  | connectStoreHost connect =>
      rw [connect] at addr early
      exact ⟨running, ⟨told, follows, balanced⟩, rfl, addr, early⟩
  | connectStoreAddr connect =>
      rw [connect] at host
      exact ⟨running, ⟨told, follows, balanced⟩, host, rfl, nofun⟩
  | @dispatch callback queue idle queued =>
      rw [queued] at follows
      rw [idle] at balanced
      have next := callback.first_balanced follows.1 balanced
      refine ⟨running, ⟨callback.tellsDown, follows.2, next⟩, host, addr, fun unstored => ?_⟩
      have noTicker := (early unstored).1
      rw [noTicker] at next
      exact ⟨noTicker, callback.first_early next⟩
  | loadHost callback _ =>
      rw [callback] at balanced
      exact ⟨running, ⟨told, follows, balanced⟩, host, addr,
        fun unstored => ⟨(early unstored).1, trivial⟩⟩
  | panicHost callback unstored =>
      have stored := prepared.loadHost rfl callback
      rw [stored, unstored] at host
      cases host
  | loadAddr callback _ =>
      have stored := prepared.loadAddr rfl callback
      rw [callback] at balanced
      refine ⟨running, ⟨told, follows, balanced⟩, host, addr, fun unstored => ?_⟩
      exact absurd (stored.symm.trans unstored) (by decide)
  | panicAddr callback unstored =>
      have stored := prepared.loadAddr rfl callback
      rw [stored, unstored] at addr
      cases addr
  | startTicker callback =>
      rw [callback] at balanced
      rcases balanced with ⟨rfl, none⟩
      refine sound.of_late callback not_false running ⟨true, follows, ?_⟩ rfl id id
      change before.starting + 1 + before.selecting = 1
      rw [live] at none
      omega
  | connectedUrl callback | connectedAddr callback =>
      rw [callback] at balanced
      exact sound.of_late callback not_false running ⟨told, follows, balanced⟩ rfl id id
  | storeHost callback =>
      rw [callback] at balanced
      exact sound.of_late callback not_false running ⟨told, follows, balanced⟩ rfl (fun _ => rfl) id
  | storeAddr callback =>
      rw [callback] at balanced
      exact sound.of_late callback not_false running ⟨told, follows, balanced⟩ rfl id fun _ => rfl
  | @ticker starting some _ =>
      have same : live { before with starting := starting, selecting := before.selecting + 1 } =
          before.live := by
        simp only [live, some]
        omega
      refine ⟨running, ⟨told, follows, ?_⟩, host, addr, fun unstored => ?_⟩
      · rw [same]
        exact balanced
      · exact ⟨same.trans (early unstored).1, (early unstored).2⟩
  | panicTicker _ nonpositive => exact absurd (prepared.ticker rfl) nonpositive
  | tick => exact sound
  | @stop selecting callback some =>
      rw [callback] at balanced
      rcases balanced with ⟨rfl, one⟩
      refine sound.of_late callback not_false running ⟨false, follows, rfl, ?_⟩ rfl id id
      change before.starting + selecting = 0
      rw [live, some] at one
      omega
  | receive callback _ =>
      rw [callback] at balanced
      rcases balanced with ⟨rfl, none⟩
      exact sound.of_late callback not_false running ⟨false, follows, none⟩ rfl id id
  | startReceiver | handled =>
      exact ⟨running, ⟨told, follows, balanced⟩, host, addr, early⟩

/-- A step that does not panic was prepared. -/
theorem Sound.prepared (sound : Sound before) (moves : Moves pingInterval before event after)
    (runs : after.panicked = false) : Prepared pingInterval before event := by
  cases moves with
  | loadHost callback stored =>
      refine ⟨fun _ _ => ?_, ?_, nofun⟩
      · rw [← sound.host, stored]
        rfl
      · simp [callback]
  | loadAddr callback stored =>
      refine ⟨?_, fun _ _ => ?_, nofun⟩
      · simp [callback]
      · rw [← sound.addr, stored]
        rfl
  | panicHost | panicAddr | panicTicker => cases runs
  | ticker _ positive => exact ⟨nofun, nofun, fun _ => positive⟩
  | startTicker callback | connectedUrl callback | connectedAddr callback | storeHost callback
  | storeAddr callback => constructor <;> simp [callback]
  | _ => exact ⟨nofun, nofun, nofun⟩

end

/-! ## Nothing waits for ever -/

theorem isSome_stepTicker (pingInterval : ℤ) (some : 0 < before.starting) :
    (before.stepTicker pingInterval).isSome = true := by
  rw [stepTicker]
  cases starting : before.starting with
  | zero => simp [starting] at some
  | succ => by_cases positive : 0 < pingInterval <;> simp [positive]

section

variable [NetRules] {pingInterval : ℤ}

theorem isSome_stepConnect (running : before.connect ≠ .returned) :
    before.stepConnect.isSome = true := by
  rw [stepConnect]
  cases connect : before.connect with
  | returned => exact absurd connect running
  | _ => rfl

/-- A callback waits only to be dispatched, or in a send. -/
theorem isSome_stepCallback (idle : before.callback ≠ .idle)
    (notDisconnected : before.callback ≠ .notDisconnected)
    (reconnected : before.callback ≠ .reconnected) : before.stepCallback.isSome = true := by
  rw [stepCallback]
  cases callback : before.callback with
  | idle => exact absurd callback idle
  | notDisconnected => exact absurd callback notDisconnected
  | reconnected => exact absurd callback reconnected
  | loadHost => cases before.natsHost <;> rfl
  | loadAddr => cases before.natsAddr <;> rfl
  | _ => rfl

/-- Unless no callback waits, something can be done. -/
theorem Sound.progress (sound : Sound before) : before.Settled ∨
    ∃ event : NatsEvent, event.works = true ∧ (before.step pingInterval event).isSome = true := by
  have running := sound.running
  rcases sound.balanced with ⟨told, _, balanced⟩
  by_cases returned : before.connect = .returned
  · by_cases idle : before.callback = .idle
    · cases queue : before.queue with
      | nil => exact Or.inl ⟨queue, idle⟩
      | cons => exact Or.inr ⟨.dispatch, rfl, by simp [NatsConnection.step, running, idle, queue]⟩
    refine Or.inr ?_
    by_cases notDisconnected : before.callback = .notDisconnected
    · rw [notDisconnected] at balanced
      have one : before.starting + before.selecting = 1 := balanced.2
      by_cases none : before.starting = 0
      · have selecting : before.selecting = 1 := by omega
        exact ⟨.stop, rfl, by simp [NatsConnection.step, running, notDisconnected, selecting]⟩
      · have waits := isSome_stepTicker pingInterval (Nat.pos_of_ne_zero none)
        exact ⟨.ticker, rfl, by simpa [NatsConnection.step, running] using waits⟩
    by_cases reconnected : before.callback = .reconnected
    · cases receiver : before.receiver with
      | receiving =>
          exact ⟨.receive, rfl, by simp [NatsConnection.step, running, reconnected, receiver]⟩
      | starting | handling =>
          refine ⟨.receiver, rfl, ?_⟩
          simp [NatsConnection.step, stepReceiver, running, receiver, returned]
    · have next := isSome_stepCallback idle notDisconnected reconnected
      exact ⟨.callback, rfl, by simpa [NatsConnection.step, running] using next⟩
  · have next := isSome_stepConnect returned
    exact Or.inr ⟨.connect, rfl, by simpa [NatsConnection.step, running] using next⟩

end

end NatsConnection

/-- How many steps `Connect` still takes. -/
def ConnectAt.work : ConnectAt → ℕ
  | .connectedUrl => 4
  | .connectedAddr _ => 3
  | .storeHost _ _ => 2
  | .storeAddr _ => 1
  | .returned => 0

/-- How many steps a callback still takes, with those of the ticker goroutine or of the receiver
that follow from it. -/
def CallbackAt.work : CallbackAt → ℕ
  | .idle => 0
  | .loadHost => 4
  | .loadAddr => 3
  | .startTicker => 2
  | .notDisconnected => 7
  | .connectedUrl => 6
  | .connectedAddr _ => 5
  | .storeHost _ _ => 4
  | .storeAddr _ => 3
  | .reconnected => 2

/-- The moves that a callback which waits still needs. -/
def NatsCallback.work (callback : NatsCallback) : ℕ :=
  callback.first.work + 1

theorem NatsCallback.work_le (callback : NatsCallback) : callback.work ≤ 8 := by
  cases callback <;> decide

/-- The moves that the receiver still needs before it waits again. -/
def ReceiverAt.work : ReceiverAt → ℕ
  | .receiving => 0
  | .starting | .handling => 1

namespace NatsConnection

/-- How many steps the process still takes. A panic is its last step. -/
def work (state : NatsConnection) : ℕ :=
  state.connect.work + (state.queue.map NatsCallback.work).sum + state.callback.work +
    state.starting + state.receiver.work + (!state.panicked).toNat

section

variable [NetRules] {pingInterval : ℤ} {before after : NatsConnection} {event : NatsEvent}

/-- Every step that works leaves less to do. -/
theorem work_le (running : before.panicked = false)
    (moves : Moves pingInterval before event after) :
    event.works.toNat + after.work ≤ before.work + 8 * event.outside.toNat := by
  cases moves with
  | tick => exact Nat.le_of_eq (Nat.zero_add _)
  | outage | recovery =>
      have disconnected := NatsCallback.work_le .disconnected
      have reconnected := NatsCallback.work_le .reconnected
      simp only [work, NatsEvent.works, NatsEvent.outside, Bool.toNat_true, Bool.toNat_false,
        List.map_append, List.map_singleton, List.sum_append, List.sum_singleton]
      omega
  | connectConnectedUrl connect | connectConnectedAddr connect | connectStoreHost connect
  | connectStoreAddr connect =>
      simp only [work, connect, ConnectAt.work, NatsEvent.works, Bool.toNat_true]
      omega
  | dispatch idle queued =>
      simp only [work, idle, queued, List.map_cons, List.sum_cons, NatsCallback.work,
        CallbackAt.work, NatsEvent.works, Bool.toNat_true]
      omega
  | loadHost callback | loadAddr callback | startTicker callback | connectedUrl callback
  | connectedAddr callback | storeHost callback | storeAddr callback | stop callback =>
      simp only [work, callback, CallbackAt.work, NatsEvent.works, Bool.toNat_true]
      omega
  | ticker some =>
      simp only [work, some, NatsEvent.works, Bool.toNat_true]
      omega
  | panicHost | panicAddr | panicTicker =>
      simp only [work, running, Bool.not_false, Bool.not_true, NatsEvent.works, Bool.toNat_true,
        Bool.toNat_false]
      omega
  | receive callback receiver =>
      simp only [work, callback, receiver, CallbackAt.work, ReceiverAt.work, NatsEvent.works,
        Bool.toNat_true]
      omega
  | startReceiver receiver | handled receiver =>
      simp only [work, receiver, ReceiverAt.work, NatsEvent.works, Bool.toNat_true]
      omega

/-- The steps of a run that work are bounded by the outages and the recoveries. -/
theorem countP_works_le {start last : NatsConnection} {steps : List (NatsConnection × NatsEvent)}
    (runs : (system pingInterval).Run start steps last) :
    steps.countP (fun step => step.2.works) ≤
      start.work + 8 * steps.countP fun step => step.2.outside := by
  refine (Nat.le_add_right _ last.work).trans (runs.countP_le ?_)
  intro before event after moves
  exact work_le (moves_of_step moves).1 (moves_of_step moves).2

theorem Sound.callbacksSafe (sound : Sound before) : before.CallbacksSafe pingInterval := by
  rcases sound.balanced with ⟨told, follows, balanced⟩
  refine ⟨sound.running, fun notDisconnected => ?_, ?_, sound.progress, before.work, ?_⟩
  · rw [notDisconnected] at balanced
    exact balanced.2
  · rintro ⟨empty, idle⟩
    rw [empty] at follows
    rw [idle] at balanced
    have live : before.live = told.toNat := balanced
    have same : told = before.conn.isNone := follows
    rw [live, same]
    cases before.conn <;> rfl
  · exact fun steps last runs => countP_works_le runs

/-- The callbacks are safe all along a run exactly if every step of the run is prepared. -/
theorem callbacksSafe_iff (pingInterval : ℤ) (execution : (system pingInterval).Execution) :
    (∀ state ∈ execution.states, state.CallbacksSafe pingInterval) ↔
      ∀ step ∈ execution.steps, step.1.Prepared pingInterval step.2 := by
  have safe (state : NatsConnection) (sound : Sound state) : state.CallbacksSafe pingInterval :=
    sound.callbacksSafe
  refine execution.forall_states_iff ?_ ?_ safe ?_
  · rintro _ ⟨peer, rfl⟩
    exact sound_initial peer
  · exact fun before event after sound prepared moves => sound.step prepared (moves_of_step moves).2
  · intro before event after sound unprepared moves safe
    exact unprepared (sound.prepared (moves_of_step moves).2 safe.running)

end

section

local instance noLiterals : NetRules := NetRules.noLiterals

/-- A server. -/
def firstPeer : Peer where
  url := text "nats://nats:4222"
  addr := text "10.0.0.1:4222"

/-- If the connection fails before `Connect` has stored the host, `DisconnectedCB` panics. -/
theorem not_callbacksSafe_always :
    ¬∀ execution : (system 20000000000).Execution, ∀ state ∈ execution.states,
      state.CallbacksSafe 20000000000 := by
  intro always
  let start : NatsConnection := { conn := some firstPeer }
  have ran : [NatsEvent.outage, .dispatch, .callback].foldlM (step 20000000000) start =
      some { conn := none, callback := .loadHost, panicked := true } := by
    decide
  have safe := System.holds_of_foldlM always ⟨firstPeer, rfl⟩ ran fun _ _ _ moves => moves
  have running : true = false := safe.running
  cases running

end

end NatsConnection

end Promfetcher
