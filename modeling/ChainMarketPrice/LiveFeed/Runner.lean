import ChainMarketPrice.CoreEngine.SpscSequential
import ChainMarketPrice.Distribution.Sbe
import ChainMarketPrice.Lib.Backoff
import ChainMarketPrice.LiveFeed.Session

/-!
# The live feed

`crates/live-feed/src/bin/live_feed.rs`: the loop around a `Session`. It connects, subscribes,
hands the events of each message to a sink and carries out the returned action; when a
connection is over it waits and connects again. What the network and the clocks do is an
argument: which branch of the `select!` is ready in each turn, and which send fails.
-/

namespace ChainMarketPrice.LiveFeed
namespace Runner

open CoreEngine ChainMarketPrice.Distribution

/-- The part of `Args` that the loop reads. The names are strings in the source. -/
structure Args where
  products : List (List UInt8)
  seconds : ℕ
deriving Repr, DecidableEq

/-- `STALE_AFTER_MS`. -/
def staleAfterMs : UInt64 := 10000

/-- A second, in nanoseconds. -/
def second : ℕ := 1000000000

/-- `MAX_BACKOFF`. -/
def maxBackoff : ℕ := 30 * second

/-- The time from the start to the deadline. -/
def Args.deadline (args : Args) : Option ℕ :=
  if args.seconds = 0 then none else some (args.seconds * second)

/-- `sub_msg`. -/
def subMsg (kind : String) (products : List (List UInt8)) : List UInt8 :=
  let ids := products.map fun p => Bytes.ofString "\"" ++ p ++ Bytes.ofString "\""
  Bytes.ofString "\x7b\"type\":\"" ++ Bytes.ofString kind ++ Bytes.ofString "\",\"product_ids\":["
    ++ (Bytes.ofString ",").intercalate ids
    ++ Bytes.ofString "],\"channels\":[\"ticker\",\"heartbeat\"]\x7d"

/-! ## The sink -/

/-- `Sink`, without the timing of its own work. -/
structure Sink where
  ring : SpscRingBuffer.Ring NormalizedBbo 10
  buf : List UInt8
  bbos : UInt64
  trades : UInt64
  exchangeToLocalNs : List Int64

namespace Sink

def new : Sink where
  ring := .new
  buf := List.replicate Sbe.totalSbeBboLen 0
  bbos := 0
  trades := 0
  exchangeToLocalNs := []

/-- `handle`. The subtraction of times and the counters wrap in the release profile. -/
def handle (s : Sink) : Event → Sink
  | .bbo b =>
    let ring := (s.ring.tryPush b).2
    let (popped, ring) := ring.tryPop
    let buf :=
      match popped with
      | some x => (Sbe.encodeBboSbe x s.buf).2
      | none => s.buf
    let exchangeToLocalNs :=
      if s.exchangeToLocalNs.length < 1000000 then
        s.exchangeToLocalNs
          ++ [b.telemetry.t1IngestNicNs.toInt64 - b.telemetry.t0ExchangeNs.toInt64]
      else s.exchangeToLocalNs
    { s with
      ring := ring, buf := buf, bbos := s.bbos + 1, exchangeToLocalNs := exchangeToLocalNs }
  | .trade _ => { s with trades := s.trades + 1 }

end Sink

/-! ## One connection -/

/-- `Outcome`. -/
inductive Outcome
  | finished
  | reconnect (reason : Reason)
deriving Repr, DecidableEq

/-- A frame that the loop sends. -/
inductive Outgoing
  | text (text : List UInt8)
  | pong (payload : List UInt8)
deriving Repr, DecidableEq

/-- The branch of the `select!` that is taken, and what it reads. -/
inductive Turn
  | finished
  | tick (elapsedMs : UInt64)
  | ended
  | failed
  | text (payload : List UInt8) (t1Ns elapsedMs : UInt64)
  | ping (payload : List UInt8)
  | close
  | other
deriving Repr, DecidableEq

/-- What the network does for a connection: the time when it is established, if it is; the
number of the frame whose sending fails; the turns of the loop. -/
structure Link where
  connectedMs : Option UInt64
  failingSend : Option ℕ
  turns : List Turn
deriving Repr, DecidableEq

/-- The state that `run_connection` works on, with the frames sent so far. -/
structure Connection where
  session : Session
  sink : Sink
  gotMessage : Bool
  sent : List Outgoing

namespace Connection

/-- `ws.send(..).await?` for each of the frames: whether all were sent. -/
def sendAll (failingSend : Option ℕ) (c : Connection) : List Outgoing → Connection × Bool
  | [] => (c, true)
  | frame :: frames =>
    if failingSend = some c.sent.length then (c, false)
    else sendAll failingSend { c with sent := c.sent ++ [frame] } frames

/-- `session.note_action_taken`. -/
def noteActionTaken (c : Connection) (action : Action) : Connection :=
  { c with session := c.session.noteActionTaken action }

/-- One turn of the loop, and how it ends the connection if it does. -/
def turn (products : List (List UInt8)) (failingSend : Option ℕ) (c : Connection) :
    Turn → Connection × Option (Except Unit Outcome)
  | .finished => (c, some (.ok .finished))
  | .tick elapsedMs =>
    match c.session.onTick elapsedMs with
    | none => (c, none)
    | some action =>
      let c := c.noteActionTaken action
      match action with
      | .reconnect reason => (c, some (.ok (.reconnect reason)))
      | .resubscribe _ => (c, none)
  | .ended => (c, some (.ok (.reconnect .disconnected)))
  | .failed => (c, some (.error ()))
  | .text payload t1Ns elapsedMs =>
    let o := c.session.onMessage payload t1Ns elapsedMs []
    let c :=
      { c with session := o.session, sink := o.out.foldl Sink.handle c.sink, gotMessage := true }
    match o.action with
    | some (.resubscribe reason) =>
      let (c, allSent) := (c.noteActionTaken (.resubscribe reason)).sendAll failingSend
        [.text (subMsg "unsubscribe" products), .text (subMsg "subscribe" products)]
      (c, if allSent then none else some (.error ()))
    | some (.reconnect reason) =>
      (c.noteActionTaken (.reconnect reason), some (.ok (.reconnect reason)))
    | none => (c, none)
  | .ping payload =>
    let (c, allSent) := c.sendAll failingSend [.pong payload]
    (c, if allSent then none else some (.error ()))
  | .close => (c, some (.ok (.reconnect .disconnected)))
  | .other => (c, none)

/-- The loop of `run_connection`: `none` if it is still running after these turns. -/
def runTurns (products : List (List UInt8)) (failingSend : Option ℕ) (c : Connection) :
    List Turn → Connection × Option (Except Unit Outcome)
  | [] => (c, none)
  | t :: turns =>
    match c.turn products failingSend t with
    | (c, some result) => (c, some result)
    | (c, none) => runTurns products failingSend c turns

end Connection

/-- `run_connection`. -/
def runConnection (products : List (List UInt8)) (link : Link) (session : Session) (sink : Sink) :
    Connection × Option (Except Unit Outcome) :=
  let c : Connection := { session := session, sink := sink, gotMessage := false, sent := [] }
  match link.connectedMs with
  | none => (c, some (.error ()))
  | some elapsedMs =>
    let c := { c with session := c.session.onConnected elapsedMs }
    let (c, allSent) := c.sendAll link.failingSend [.text (subMsg "subscribe" products)]
    if allSent then c.runTurns products link.failingSend link.turns else (c, some (.error ()))

/-! ## The main loop -/

/-- One turn of the loop in `main`: the network, and the time when the connection is over. -/
structure Attempt where
  link : Link
  nowNs : ℕ
deriving Repr, DecidableEq

/-- The state of `main`. -/
structure Main where
  session : Session
  sink : Sink
  backoff : ℕ

def Main.new (args : Args) : Main where
  session := .new args.products staleAfterMs
  sink := .new
  backoff := second

/-- What a turn of the loop in `main` was: its connection, and how long it slept if the loop
goes on. -/
structure Visit where
  connection : Connection
  result : Option (Except Unit Outcome)
  sleep : Option ℕ

/-- The end of a turn: how the connection ended, and the delay before the next one. -/
def Main.next (args : Args) (nowNs : ℕ) (c : Connection) (result : Option (Except Unit Outcome))
    (backoff : ℕ) : Visit × Main :=
  let m := { session := c.session, sink := c.sink, backoff := backoff }
  match result with
  | none => (⟨c, result, none⟩, m)
  | some (.ok .finished) => (⟨c, result, none⟩, m)
  | some _ =>
    if args.deadline.any fun deadline => nowNs + backoff ≥ deadline then (⟨c, result, none⟩, m)
    else (⟨c, result, some backoff⟩, { m with backoff := Backoff.double maxBackoff backoff })

def Main.attempt (args : Args) (m : Main) (a : Attempt) : Visit × Main :=
  let (c, result) := runConnection args.products a.link m.session m.sink
  Main.next args a.nowNs c result (if c.gotMessage then second else m.backoff)

/-- The loop of `main`. -/
def Main.run (args : Args) (m : Main) : List Attempt → List Visit × Main
  | [] => ([], m)
  | a :: attempts =>
    let (visit, m) := m.attempt args a
    match visit.sleep with
    | none => ([visit], m)
    | some _ =>
      let (visits, m) := Main.run args m attempts
      (visit :: visits, m)

end Runner
end ChainMarketPrice.LiveFeed
