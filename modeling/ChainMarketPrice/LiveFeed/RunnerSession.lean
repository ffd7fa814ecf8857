import ChainMarketPrice.LiveFeed.Runner
import ChainMarketPrice.LiveFeed.SessionRunTheorems

/-!
# What the loop does to its session

Every turn of a connection is a few calls on the session (`turnOps`), and what the session
gives out goes to the sink. A connection carries out its turns one after the other until one of
them ends it (`Handles`). Over all connections together the session and the sink are what one
run of session calls makes of them, in which no action is left undone, and the frames sent on a
connection are those that its actions and its pings ask for (`live_feed_drives_session`).
-/

namespace ChainMarketPrice.LiveFeed
namespace Runner

/-- The calls on the session in one turn. -/
def turnOps (s : Session) : Turn → List SessionOp
  | .tick elapsedMs => (s.onTick elapsedMs).toList.map .actionTaken
  | .text payload t1Ns elapsedMs =>
    .message payload t1Ns elapsedMs ::
      (s.onMessage payload t1Ns elapsedMs []).action.toList.map .actionTaken
  | _ => []

/-- The messages among some turns. -/
def deliveries (turns : List Turn) : List Delivery :=
  turns.filterMap fun
    | .text payload t1Ns elapsedMs => some ⟨payload, t1Ns, elapsedMs⟩
    | _ => none

/-- The messages among some calls. -/
def messages (ops : List SessionOp) : List Delivery :=
  ops.filterMap fun
    | .message payload t1Ns nowMs => some ⟨payload, t1Ns, nowMs⟩
    | _ => none

/-- Each action is taken in the next call. The watchdog is the only one to act unasked. -/
inductive Prompt : List Call → Prop
  | nil : Prompt []
  | connected {nowMs : UInt64} {calls : List Call} (rest : Prompt calls) :
    Prompt (⟨.connected nowMs, [], none⟩ :: calls)
  | message {d : Delivery} {events : List Event} {calls : List Call} (rest : Prompt calls) :
    Prompt (⟨d.op, events, none⟩ :: calls)
  | action {d : Delivery} {events : List Event} {action : Action} {calls : List Call}
    (rest : Prompt calls) :
    Prompt (⟨d.op, events, some action⟩ :: ⟨.actionTaken action, [], none⟩ :: calls)
  | stale {calls : List Call} (rest : Prompt calls) :
    Prompt (⟨.actionTaken (.reconnect .stale), [], none⟩ :: calls)

lemma Prompt.append {calls calls' : List Call} (h : Prompt calls) (h' : Prompt calls') :
    Prompt (calls ++ calls') := by
  induction h with
  | nil => exact h'
  | connected _ ih => exact .connected ih
  | message _ ih => exact .message ih
  | action _ ih => exact .action ih
  | stale _ ih => exact .stale ih

/-! ## Turns and their calls -/

/-- A turn after which the loop goes on, with its calls. -/
inductive GoesOn : Turn → List SessionOp → Prop
  | tick (elapsedMs : UInt64) : GoesOn (.tick elapsedMs) []
  | text (d : Delivery) : GoesOn (.text d.payload d.t1Ns d.nowMs) [d.op]
  | renewed (d : Delivery) (reason : Reason) :
    GoesOn (.text d.payload d.t1Ns d.nowMs) [d.op, .actionTaken (.resubscribe reason)]
  | ping (payload : List UInt8) : GoesOn (.ping payload) []
  | other : GoesOn .other []

/-- A turn that ends the connection, with its calls. -/
inductive Ends : Turn → List SessionOp → Except Unit Outcome → Prop
  | finished : Ends .finished [] (.ok .finished)
  | stale (elapsedMs : UInt64) :
    Ends (.tick elapsedMs) [.actionTaken (.reconnect .stale)] (.ok (.reconnect .stale))
  | ended : Ends .ended [] (.ok (.reconnect .disconnected))
  | failed : Ends .failed [] (.error ())
  | reconnected (d : Delivery) (reason : Reason) :
    Ends (.text d.payload d.t1Ns d.nowMs) [d.op, .actionTaken (.reconnect reason)]
      (.ok (.reconnect reason))
  | unsent (d : Delivery) (reason : Reason) :
    Ends (.text d.payload d.t1Ns d.nowMs) [d.op, .actionTaken (.resubscribe reason)] (.error ())
  | unanswered (payload : List UInt8) : Ends (.ping payload) [] (.error ())
  | close : Ends .close [] (.ok (.reconnect .disconnected))

/-- The turns that are carried out: all of them, or those up to the first one that ends the
connection. Their calls go one after the other to the session. -/
inductive Handles : Session → List Turn → List Turn → List SessionOp →
    Option (Except Unit Outcome) → Prop
  | running (s : Session) : Handles s [] [] [] none
  | ends {s : Session} {t : Turn} {result : Except Unit Outcome} (turns : List Turn)
    (h : Ends t (turnOps s t) result) :
    Handles s (t :: turns) [t] (turnOps s t) (some result)
  | goesOn {s : Session} {t : Turn} {turns handled : List Turn} {ops : List SessionOp}
    {result : Option (Except Unit Outcome)} (h : GoesOn t (turnOps s t))
    (rest : Handles (SessionRun.run s (turnOps s t)).session turns handled ops result) :
    Handles s (t :: turns) (t :: handled) (turnOps s t ++ ops) result

/-! ## Sending -/

namespace Connection

variable {products : List (List UInt8)} {failingSend : Option ℕ}

/-- What is sent is a first part of the frames, and all of them unless the next send fails. -/
lemma sendAll_eq (failingSend : Option ℕ) (c : Connection) (frames : List Outgoing) :
    ∃ sent, sent <+: frames ∧
      (c.sendAll failingSend frames).1 = { c with sent := c.sent ++ sent } ∧
      ((c.sendAll failingSend frames).2 = true → sent = frames) ∧
      ((c.sendAll failingSend frames).2 = false →
        failingSend = some (c.sent ++ sent).length) := by
  induction frames generalizing c with
  | nil => exact ⟨[], List.prefix_rfl, by simp [sendAll], fun _ => rfl, nofun⟩
  | cons frame frames ih =>
    by_cases hfails : failingSend = some c.sent.length
    · have hstop : c.sendAll failingSend (frame :: frames) = (c, false) := if_pos hfails
      rw [hstop]
      refine ⟨[], List.nil_prefix, ?_, nofun, fun _ => ?_⟩
      · simp
      · simpa using hfails
    · obtain ⟨sent, hprefix, hstate, hall, hnext⟩ := ih { c with sent := c.sent ++ [frame] }
      have hstep : c.sendAll failingSend (frame :: frames)
          = sendAll failingSend { c with sent := c.sent ++ [frame] } frames := if_neg hfails
      rw [hstep]
      refine ⟨frame :: sent, List.cons_prefix_cons.mpr ⟨rfl, hprefix⟩, ?_, ?_, ?_⟩
      · rw [hstate]
        simp
      · exact fun h => congrArg (frame :: ·) (hall h)
      · intro h
        rw [hnext h]
        simp

end Connection

/-- The commands among some frames. -/
def commands (frames : List Outgoing) : List (List UInt8) :=
  frames.filterMap fun
    | .text text => some text
    | .pong _ => none

/-- The answers to pings among some frames. -/
def pongs (frames : List Outgoing) : List (List UInt8) :=
  frames.filterMap fun
    | .text _ => none
    | .pong payload => some payload

/-- The pings among some turns. -/
def pings (turns : List Turn) : List (List UInt8) :=
  turns.filterMap fun
    | .ping payload => some payload
    | _ => none

/-- The subscriptions renewed among some calls. -/
def resubscriptions (ops : List SessionOp) : ℕ :=
  ops.countP fun
    | .actionTaken (.resubscribe _) => true
    | _ => false

/-- The commands that renew a subscription. -/
def renewal (products : List (List UInt8)) : List (List UInt8) :=
  [subMsg "unsubscribe" products, subMsg "subscribe" products]

/-- A connection did not end because a send failed. -/
def Unfailed (failingSend : Option ℕ) (c : Connection) (result : Option (Except Unit Outcome)) :
    Prop :=
  result = some (.error ()) → failingSend ≠ some c.sent.length

/-- The frames sent are those that the actions and the pings ask for, up to a failing send. -/
structure Sends (products : List (List UInt8)) (sent sent' : List Outgoing) (turns : List Turn)
    (ops : List SessionOp) (complete : Prop) : Prop where
  commands : commands sent' <+:
    commands sent ++ (List.replicate (resubscriptions ops) (renewal products)).flatten
  pongs : pongs sent' <+: pongs sent ++ pings turns
  all : complete → Runner.commands sent' =
      Runner.commands sent ++ (List.replicate (resubscriptions ops) (renewal products)).flatten ∧
    Runner.pongs sent' = Runner.pongs sent ++ pings turns

/-- What some turns of a connection are. -/
structure Follows (products : List (List UInt8)) (c c' : Connection) (turns : List Turn)
    (ops : List SessionOp) (complete : Prop) : Prop where
  session : c'.session = (SessionRun.run c.session ops).session
  sink : c'.sink = (SessionRun.run c.session ops).out.foldl Sink.handle c.sink
  prompt : Prompt (SessionRun.run c.session ops).calls
  messages : messages ops = deliveries turns
  gotMessage : c'.gotMessage = (c.gotMessage || !(deliveries turns).isEmpty)
  sends : Sends products c.sent c'.sent turns ops complete

namespace Follows

variable {products : List (List UInt8)} {c c' c'' : Connection} {turns turns' : List Turn}
  {ops ops' : List SessionOp} {complete complete' : Prop}

lemma refl (products : List (List UInt8)) (c : Connection) : Follows products c c [] [] complete where
  session := rfl
  sink := rfl
  prompt := .nil
  messages := rfl
  gotMessage := (Bool.or_false _).symm
  sends :=
    { commands := by simp [resubscriptions]
      pongs := by simp [pings]
      all := by simp [resubscriptions, pings] }

/-- One part after the other; the first part is complete. -/
lemma trans (h : Follows products c c' turns ops complete) (hcomplete : complete)
    (h' : Follows products c' c'' turns' ops' complete') :
    Follows products c c'' (turns ++ turns') (ops ++ ops') complete' := by
  have hrun := SessionRun.run_append c.session ops ops'
  rw [← h.session] at hrun
  obtain ⟨hcommands, hpongs⟩ := h.sends.all hcomplete
  have hcount : (List.replicate (resubscriptions (ops ++ ops')) (renewal products)).flatten
      = (List.replicate (resubscriptions ops) (renewal products)).flatten
        ++ (List.replicate (resubscriptions ops') (renewal products)).flatten := by
    rw [resubscriptions, List.countP_append, List.replicate_add, List.flatten_append]
    rfl
  have hpings : pings (turns ++ turns') = pings turns ++ pings turns' := List.filterMap_append
  have hsends := h'.sends
  constructor
  · rw [hrun, h'.session]
  · rw [hrun, h'.sink, h.sink, List.foldl_append]
  · rw [hrun]
    exact h.prompt.append h'.prompt
  · rw [Runner.messages, List.filterMap_append, deliveries, List.filterMap_append]
    exact congrArg₂ (· ++ ·) h.messages h'.messages
  · have hdeliveries : deliveries (turns ++ turns') = deliveries turns ++ deliveries turns' :=
      List.filterMap_append
    rw [h'.gotMessage, h.gotMessage, hdeliveries]
    cases deliveries turns with
    | nil => simp
    | cons d rest => simp
  · constructor
    · rw [hcount, ← List.append_assoc, ← hcommands]
      exact hsends.commands
    · rw [hpings, ← List.append_assoc, ← hpongs]
      exact hsends.pongs
    · rw [hcount, hpings, ← List.append_assoc, ← List.append_assoc, ← hcommands, ← hpongs]
      exact hsends.all

/-- A turn without calls. -/
lemma quiet (products : List (List UInt8)) (c : Connection) {t : Turn} (ht : deliveries [t] = [])
    (hpings : pings [t] = []) : Follows products c c [t] [] complete where
  session := rfl
  sink := rfl
  prompt := .nil
  messages := ht.symm
  gotMessage := by simp [ht]
  sends :=
    { commands := by simp [resubscriptions]
      pongs := by simp [hpings]
      all := by simp [resubscriptions, hpings] }

/-- The frames of a turn without a command. -/
lemma sends_same {sent : List Outgoing} {t : Turn} {op : List SessionOp}
    (hop : resubscriptions op = 0) (hpings : pings [t] = []) :
    Sends products sent sent [t] op complete where
  commands := by simp [hop]
  pongs := by simp [hpings]
  all := by simp [hop, hpings]

end Follows

namespace Connection

variable {products : List (List UInt8)} {failingSend : Option ℕ}

lemma onTick_eq_some {s : Session} {elapsedMs : UInt64} {action : Action}
    (h : s.onTick elapsedMs = some action) : action = .reconnect .stale := by
  simp only [Session.onTick, Option.ite_none_right_eq_some, Option.some.injEq] at h
  exact h.2.symm

/-- A tick looks at the watchdog. -/
lemma follows_tick (c : Connection) (elapsedMs : UInt64) (complete : Prop) :
    Follows products c (c.turn products failingSend (.tick elapsedMs)).1 [.tick elapsedMs]
      (turnOps c.session (.tick elapsedMs)) complete := by
  simp only [turn, turnOps]
  cases htick : c.session.onTick elapsedMs with
  | none => exact .quiet products c rfl rfl
  | some action =>
    rw [onTick_eq_some htick]
    constructor
    · rfl
    · rfl
    · exact .stale .nil
    · rfl
    · exact (Bool.or_false _).symm
    · exact Follows.sends_same rfl rfl

/-- The frames that a turn asks for, as far as they are sent. -/
lemma sends_frames (products : List (List UInt8)) (failingSend : Option ℕ) (c : Connection)
    (frames : List Outgoing) (t : Turn) (ops : List SessionOp)
    (hcommands : commands frames
      = (List.replicate (resubscriptions ops) (renewal products)).flatten)
    (hpongs : pongs frames = pings [t]) :
    ∃ sent, (c.sendAll failingSend frames).1 = { c with sent := c.sent ++ sent } ∧
      Sends products c.sent (c.sent ++ sent) [t] ops
        (Unfailed failingSend (c.sendAll failingSend frames).1
          (if (c.sendAll failingSend frames).2 then none else some (.error ()))) := by
  obtain ⟨sent, hprefix, hstate, hall, hnext⟩ := c.sendAll_eq failingSend frames
  have hcommandsApp : commands (c.sent ++ sent) = commands c.sent ++ commands sent :=
    List.filterMap_append
  have hpongsApp : pongs (c.sent ++ sent) = pongs c.sent ++ pongs sent := List.filterMap_append
  refine ⟨sent, hstate, ?_, ?_, ?_⟩
  · rw [hcommandsApp, ← hcommands, List.prefix_append_right_inj]
    exact hprefix.filterMap _
  · rw [hpongsApp, ← hpongs, List.prefix_append_right_inj]
    exact hprefix.filterMap _
  · intro hunfailed
    have hsent : (c.sendAll failingSend frames).2 = true := by
      cases hall : (c.sendAll failingSend frames).2 with
      | true => rfl
      | false =>
        rw [hall, hstate] at hunfailed
        exact absurd (hnext hall) (hunfailed rfl)
    rw [hcommandsApp, hpongsApp, hall hsent, hcommands, hpongs]
    exact ⟨rfl, rfl⟩

/-- A ping is answered. -/
lemma follows_ping (c : Connection) (payload : List UInt8) :
    Follows products c (c.turn products failingSend (.ping payload)).1 [.ping payload] []
      (Unfailed failingSend (c.turn products failingSend (.ping payload)).1
        (c.turn products failingSend (.ping payload)).2) := by
  obtain ⟨sent, hstate, hsends⟩ := c.sends_frames products failingSend [.pong payload]
    (.ping payload) [] rfl rfl
  rw [hstate] at hsends
  simp only [turn, hstate]
  constructor
  · rfl
  · rfl
  · exact .nil
  · rfl
  · exact (Bool.or_false _).symm
  · exact hsends

/-- A text goes to the session, its events to the sink, and its action is taken. -/
lemma follows_text (c : Connection) (payload : List UInt8) (t1Ns elapsedMs : UInt64) :
    Follows products c (c.turn products failingSend (.text payload t1Ns elapsedMs)).1
      [.text payload t1Ns elapsedMs] (turnOps c.session (.text payload t1Ns elapsedMs))
      (Unfailed failingSend (c.turn products failingSend (.text payload t1Ns elapsedMs)).1
        (c.turn products failingSend (.text payload t1Ns elapsedMs)).2) := by
  have hgot : true = (c.gotMessage || !(deliveries [.text payload t1Ns elapsedMs]).isEmpty) :=
    (Bool.or_true _).symm
  simp only [turn, turnOps]
  cases haction : (c.session.onMessage payload t1Ns elapsedMs []).action with
  | none =>
    have hcall : (SessionRun.run c.session [.message payload t1Ns elapsedMs]).calls
        = [⟨(Delivery.mk payload t1Ns elapsedMs).op,
            (c.session.onMessage payload t1Ns elapsedMs []).out, none⟩] := by
      rw [← haction]
      rfl
    constructor
    · rfl
    · rfl
    · exact hcall ▸ .message .nil
    · rfl
    · exact hgot
    · exact Follows.sends_same rfl rfl
  | some action =>
    have hcall : (SessionRun.run c.session
          [.message payload t1Ns elapsedMs, .actionTaken action]).calls
        = [⟨(Delivery.mk payload t1Ns elapsedMs).op,
            (c.session.onMessage payload t1Ns elapsedMs []).out, some action⟩,
          ⟨.actionTaken action, [], none⟩] := by
      rw [← haction]
      rfl
    cases action with
    | resubscribe reason =>
      let taken : Connection := noteActionTaken
        { c with
          session := (c.session.onMessage payload t1Ns elapsedMs []).session
          sink := (c.session.onMessage payload t1Ns elapsedMs []).out.foldl Sink.handle c.sink
          gotMessage := true } (.resubscribe reason)
      obtain ⟨sent, hstate, hsends⟩ := taken.sends_frames products failingSend
        [.text (subMsg "unsubscribe" products), .text (subMsg "subscribe" products)]
        (.text payload t1Ns elapsedMs)
        [.message payload t1Ns elapsedMs, .actionTaken (.resubscribe reason)] rfl rfl
      rw [hstate] at hsends
      simp only [taken] at hstate hsends
      simp only [hstate]
      constructor
      · rfl
      · rfl
      · exact hcall ▸ .action .nil
      · rfl
      · exact hgot
      · exact hsends
    | reconnect reason =>
      constructor
      · rfl
      · rfl
      · exact hcall ▸ .action .nil
      · rfl
      · exact hgot
      · exact Follows.sends_same rfl rfl

/-- Each turn. -/
lemma follows_turn (products : List (List UInt8)) (failingSend : Option ℕ) (c : Connection)
    (t : Turn) :
    Follows products c (c.turn products failingSend t).1 [t] (turnOps c.session t)
      (Unfailed failingSend (c.turn products failingSend t).1
        (c.turn products failingSend t).2) := by
  cases t with
  | tick elapsedMs => exact c.follows_tick elapsedMs _
  | text payload t1Ns elapsedMs => exact c.follows_text payload t1Ns elapsedMs
  | ping payload => exact c.follows_ping payload
  | finished => exact .quiet products c rfl rfl
  | ended => exact .quiet products c rfl rfl
  | failed => exact .quiet products c rfl rfl
  | close => exact .quiet products c rfl rfl
  | other => exact .quiet products c rfl rfl

/-- Whether the loop goes on after a turn, and how the connection ends if it does not. -/
lemma turn_cases (products : List (List UInt8)) (failingSend : Option ℕ) (c : Connection)
    (t : Turn) :
    ((c.turn products failingSend t).2 = none ∧ GoesOn t (turnOps c.session t)) ∨
      ∃ result, (c.turn products failingSend t).2 = some result ∧
        Ends t (turnOps c.session t) result := by
  cases t with
  | tick elapsedMs =>
    simp only [turn, turnOps]
    cases htick : c.session.onTick elapsedMs with
    | none => exact .inl ⟨rfl, .tick elapsedMs⟩
    | some action =>
      rw [onTick_eq_some htick]
      exact .inr ⟨_, rfl, .stale elapsedMs⟩
  | text payload t1Ns elapsedMs =>
    let d : Delivery := ⟨payload, t1Ns, elapsedMs⟩
    simp only [turn, turnOps]
    cases (c.session.onMessage payload t1Ns elapsedMs []).action with
    | none => exact .inl ⟨rfl, .text d⟩
    | some action =>
      cases action with
      | resubscribe reason =>
        dsimp only
        split
        · exact .inl ⟨rfl, .renewed d reason⟩
        · exact .inr ⟨_, rfl, .unsent d reason⟩
      | reconnect reason => exact .inr ⟨_, rfl, .reconnected d reason⟩
  | ping payload =>
    simp only [turn]
    split
    · exact .inl ⟨rfl, .ping payload⟩
    · exact .inr ⟨_, rfl, .unanswered payload⟩
  | finished => exact .inr ⟨_, rfl, .finished⟩
  | ended => exact .inr ⟨_, rfl, .ended⟩
  | failed => exact .inr ⟨_, rfl, .failed⟩
  | close => exact .inr ⟨_, rfl, .close⟩
  | other => exact .inl ⟨rfl, .other⟩

/-- All turns up to the end of the connection. -/
lemma follows_turns (products : List (List UInt8)) (failingSend : Option ℕ) (c : Connection)
    (turns : List Turn) :
    ∃ handled ops,
      Handles c.session turns handled ops (c.runTurns products failingSend turns).2 ∧
      Follows products c (c.runTurns products failingSend turns).1 handled ops
        (Unfailed failingSend (c.runTurns products failingSend turns).1
          (c.runTurns products failingSend turns).2) := by
  induction turns generalizing c with
  | nil => exact ⟨[], [], .running c.session, .refl products c⟩
  | cons t turns ih =>
    have hturn := c.follows_turn products failingSend t
    have hcases := c.turn_cases products failingSend t
    simp only [runTurns]
    cases hresult : c.turn products failingSend t with
    | mk c' result =>
      rw [hresult] at hturn hcases
      rcases hcases with ⟨hnone, hgoesOn⟩ | ⟨result', hsome, hends⟩
      · have hnone : result = none := hnone
        subst hnone
        obtain ⟨handled, ops, hhandles, hfollows⟩ := ih c'
        rw [hturn.session] at hhandles
        exact ⟨t :: handled, _, .goesOn hgoesOn hhandles, hturn.trans nofun hfollows⟩
      · have hsome : result = some result' := hsome
        subst hsome
        exact ⟨[t], _, .ends turns hends, hturn⟩

end Connection

/-! ## One connection -/

/-- The turns that a connection carries out, and its calls: it connects the session and
subscribes first, if it can. -/
inductive Carries (link : Link) (session : Session) : List Turn → List SessionOp →
    Option (Except Unit Outcome) → Prop
  | unconnected (h : link.connectedMs = none) : Carries link session [] [] (some (.error ()))
  | unsubscribed {elapsedMs : UInt64} (h : link.connectedMs = some elapsedMs)
    (hsend : link.failingSend = some 0) :
    Carries link session [] [.connected elapsedMs] (some (.error ()))
  | subscribed {elapsedMs : UInt64} {turns : List Turn} {ops : List SessionOp}
    {result : Option (Except Unit Outcome)} (h : link.connectedMs = some elapsedMs)
    (hsend : link.failingSend ≠ some 0)
    (handles : Handles (session.onConnected elapsedMs) link.turns turns ops result) :
    Carries link session turns (.connected elapsedMs :: ops) result

/-- The connections that handle a text. -/
def heard (turns : List Turn) : Bool := !(deliveries turns).isEmpty

/-- What a connection did: the turns that it carried out, the calls on the session it started
with, and the frames. -/
structure Served (products : List (List UInt8)) (link : Link) (session : Session) (sink : Sink)
    (c : Connection) (result : Option (Except Unit Outcome)) (turns : List Turn)
    (ops : List SessionOp) : Prop where
  carries : Carries link session turns ops result
  session_eq : c.session = (SessionRun.run session ops).session
  sink_eq : c.sink = (SessionRun.run session ops).out.foldl Sink.handle sink
  prompt : Prompt (SessionRun.run session ops).calls
  messages : messages ops = deliveries turns
  gotMessage : c.gotMessage = heard turns
  commands : commands c.sent <+: subMsg "subscribe" products ::
    (List.replicate (resubscriptions ops) (renewal products)).flatten
  pongs : pongs c.sent <+: pings turns
  all : link.connectedMs ≠ none → Unfailed link.failingSend c result →
    Runner.commands c.sent = subMsg "subscribe" products ::
      (List.replicate (resubscriptions ops) (renewal products)).flatten ∧
    Runner.pongs c.sent = pings turns

/-- A run that begins with a connection. -/
lemma run_connected (session : Session) (elapsedMs : UInt64) (ops : List SessionOp) :
    SessionRun.run session (.connected elapsedMs :: ops)
      = ⟨(SessionRun.run (session.onConnected elapsedMs) ops).session,
          (SessionRun.run (session.onConnected elapsedMs) ops).out,
          ⟨.connected elapsedMs, [], none⟩ ::
            (SessionRun.run (session.onConnected elapsedMs) ops).calls⟩ :=
  SessionRun.run_append session [.connected elapsedMs] ops

lemma runConnection_served (products : List (List UInt8)) (link : Link) (session : Session)
    (sink : Sink) :
    ∃ turns ops, Served products link session sink (runConnection products link session sink).1
      (runConnection products link session sink).2 turns ops := by
  unfold runConnection
  dsimp only
  cases hconnected : link.connectedMs with
  | none =>
    exact ⟨[], [], .unconnected hconnected, rfl, rfl, .nil, rfl, rfl, List.nil_prefix,
      List.nil_prefix, fun h => absurd hconnected h⟩
  | some elapsedMs =>
    let c (sent : List Outgoing) : Connection :=
      { session := session.onConnected elapsedMs, sink := sink, gotMessage := false, sent := sent }
    by_cases hfails : link.failingSend = some 0
    · -- not even the subscription was sent
      have hsend : (c []).sendAll link.failingSend [.text (subMsg "subscribe" products)]
        = (c [], false) := if_pos hfails
      simp only [c] at hsend
      simp only [hsend]
      exact ⟨[], [.connected elapsedMs], .unsubscribed hconnected hfails, rfl, rfl,
        .connected .nil, rfl, rfl, List.nil_prefix, List.nil_prefix,
        fun _ hunfailed => absurd hfails (hunfailed rfl)⟩
    · have hsend : (c []).sendAll link.failingSend [.text (subMsg "subscribe" products)]
        = (c [.text (subMsg "subscribe" products)], true) := if_neg hfails
      obtain ⟨handled, ops, hhandles, hfollows⟩ := Connection.follows_turns
        products link.failingSend (c [.text (subMsg "subscribe" products)]) link.turns
      simp only [c] at hsend hhandles hfollows
      simp only [hsend, if_true]
      have hmessages : messages (.connected elapsedMs :: ops) = messages ops := rfl
      have hcount : resubscriptions (.connected elapsedMs :: ops) = resubscriptions ops :=
        List.countP_cons_of_neg (by simp)
      refine ⟨handled, .connected elapsedMs :: ops, .subscribed hconnected hfails hhandles,
        ?_, ?_, ?_, ?_, ?_, ?_, ?_, ?_⟩
      · rw [run_connected]
        exact hfollows.session
      · rw [run_connected]
        exact hfollows.sink
      · rw [run_connected]
        exact .connected hfollows.prompt
      · rw [hmessages]
        exact hfollows.messages
      · exact hfollows.gotMessage.trans (Bool.false_or _)
      · rw [hcount]
        exact hfollows.sends.commands
      · exact hfollows.sends.pongs
      · rw [hcount]
        exact fun _ => hfollows.sends.all

/-! ## All connections -/

/-- The session and the sink before a connection, after the calls of the earlier ones. -/
structure Reached (products : List (List UInt8)) (ops : List SessionOp) (session : Session)
    (sink : Sink) : Prop where
  session_eq : session = (SessionRun.run (.new products staleAfterMs) ops).session
  sink_eq : sink = (SessionRun.run (.new products staleAfterMs) ops).out.foldl Sink.handle .new
  prompt : Prompt (SessionRun.run (.new products staleAfterMs) ops).calls

lemma Reached.served {products : List (List UInt8)} {before ops : List SessionOp}
    {session : Session} {sink : Sink} {link : Link} {c : Connection}
    {result : Option (Except Unit Outcome)} {turns : List Turn}
    (h : Reached products before session sink)
    (hserved : Served products link session sink c result turns ops) :
    Reached products (before ++ ops) c.session c.sink := by
  have hrun := SessionRun.run_append (.new products staleAfterMs) before ops
  rw [← h.session_eq] at hrun
  constructor
  · rw [hrun]
    exact hserved.session_eq
  · rw [hrun, List.foldl_append, ← h.sink_eq]
    exact hserved.sink_eq
  · rw [hrun]
    exact h.prompt.append hserved.prompt

lemma next_eq (args : Args) (nowNs : ℕ) (c : Connection) (result : Option (Except Unit Outcome))
    (backoff : ℕ) :
    (Main.next args nowNs c result backoff).1.connection = c ∧
      (Main.next args nowNs c result backoff).1.result = result ∧
      (Main.next args nowNs c result backoff).2.session = c.session ∧
      (Main.next args nowNs c result backoff).2.sink = c.sink := by
  unfold Main.next
  dsimp only
  split
  · exact ⟨rfl, rfl, rfl, rfl⟩
  · exact ⟨rfl, rfl, rfl, rfl⟩
  · split
    · exact ⟨rfl, rfl, rfl, rfl⟩
    · exact ⟨rfl, rfl, rfl, rfl⟩

/-- The connection of an attempt, and what it leaves. -/
lemma attempt_eq (args : Args) (m : Main) (a : Attempt) :
    (m.attempt args a).1.connection = (runConnection args.products a.link m.session m.sink).1 ∧
      (m.attempt args a).1.result = (runConnection args.products a.link m.session m.sink).2 ∧
      (m.attempt args a).2.session
        = (runConnection args.products a.link m.session m.sink).1.session ∧
      (m.attempt args a).2.sink = (runConnection args.products a.link m.session m.sink).1.sink :=
  next_eq args a.nowNs _ _ _

/-- The loop stops after a connection that is still running or was told to finish; after any other
one only for a deadline. -/
def Stops (args : Args) (visit : Visit) : Prop :=
  visit.sleep = none ∧ (visit.result = none ∨ visit.result = some (.ok .finished) ∨
    args.deadline ≠ none)

lemma next_stops {args : Args} {nowNs : ℕ} {c : Connection}
    {result : Option (Except Unit Outcome)} {backoff : ℕ}
    (h : (Main.next args nowNs c result backoff).1.sleep = none) :
    result = none ∨ result = some (.ok .finished) ∨ args.deadline ≠ none := by
  by_cases hdeadline : args.deadline = none
  · rcases result with _ | _ | _ | reason
    · exact .inl rfl
    · simp [Main.next, hdeadline] at h
    · exact .inr (.inl rfl)
    · simp [Main.next, hdeadline] at h
  · exact .inr (.inr hdeadline)

lemma attempt_stops {args : Args} {m : Main} {a : Attempt}
    (h : (m.attempt args a).1.sleep = none) : Stops args (m.attempt args a).1 := by
  obtain ⟨-, hresult, -, -⟩ := attempt_eq args m a
  refine ⟨h, ?_⟩
  rw [hresult]
  exact next_stops h

/-- The connections of a run, each with the turns that it carries out and its calls. A further
attempt follows if and only if the loop goes on. -/
inductive Drives (args : Args) : List SessionOp → List Attempt → List Visit → List (List Turn) →
    List SessionOp → Prop
  | nil (ops : List SessionOp) : Drives args ops [] [] [] ops
  | stop {before ops : List SessionOp} {a : Attempt} {visit : Visit} {turns : List Turn}
    {session : Session} {sink : Sink} (attempts : List Attempt)
    (reached : Reached args.products before session sink)
    (served : Served args.products a.link session sink visit.connection visit.result turns ops)
    (stops : Stops args visit) :
    Drives args before (a :: attempts) [visit] [turns] (before ++ ops)
  | next {before ops after : List SessionOp} {a : Attempt} {attempts : List Attempt}
    {visit : Visit} {visits : List Visit} {turns : List Turn} {turnss : List (List Turn)}
    {session : Session} {sink : Sink}
    (reached : Reached args.products before session sink)
    (served : Served args.products a.link session sink visit.connection visit.result turns ops)
    (sleeps : visit.sleep ≠ none) (rest : Drives args (before ++ ops) attempts visits turnss after) :
    Drives args before (a :: attempts) (visit :: visits) (turns :: turnss) after

lemma run_drives {args : Args} (m : Main) (before : List SessionOp)
    (h : Reached args.products before m.session m.sink) (attempts : List Attempt) :
    ∃ turns after, Drives args before attempts (m.run args attempts).1 turns after ∧
      Reached args.products after (m.run args attempts).2.session
        (m.run args attempts).2.sink := by
  induction attempts generalizing m before with
  | nil => exact ⟨[], before, .nil before, h⟩
  | cons a attempts ih =>
    obtain ⟨hconnection, hresult, hsession, hsink⟩ := attempt_eq args m a
    obtain ⟨turns, ops, hserved⟩ := runConnection_served args.products a.link m.session m.sink
    have hreached := h.served hserved
    rw [← hsession, ← hsink] at hreached
    rw [← hconnection, ← hresult] at hserved
    unfold Main.run
    dsimp only
    cases hsleep : (m.attempt args a).1.sleep with
    | none =>
      exact ⟨[turns], before ++ ops, .stop attempts h hserved (attempt_stops hsleep), hreached⟩
    | some delay =>
      obtain ⟨turnss, after, hdrives, hlast⟩ := ih _ _ hreached
      exact ⟨turns :: turnss, after, .next h hserved (by rw [hsleep]; nofun) hdrives, hlast⟩

/-- Every run of the feed, whatever the network does, is a run of one session: each connection
goes on with the session and the sink the one before has left, connects it first, carries out
its turns in order until one of them ends it, hands the session the text of each and takes each
returned action in the next call; the sink gets the events. The frames on a connection are a
subscription, one renewal for each resubscription and an answer to each ping of these turns, all
of them unless a send fails. -/
theorem live_feed_drives_session (args : Args) (attempts : List Attempt) :
    ∃ turns ops,
      Drives args [] attempts ((Main.new args).run args attempts).1 turns ops ∧
      Reached args.products ops ((Main.new args).run args attempts).2.session
        ((Main.new args).run args attempts).2.sink :=
  run_drives (.new args) [] ⟨rfl, rfl, .nil⟩ attempts

end Runner
end ChainMarketPrice.LiveFeed
