import ChainMarketPrice.Lib.Machine
import ChainMarketPrice.Distribution.Router

/-!
# The router, one critical section at a time

`subscribe` and `unregister_client` each take the lock of the clients, release it, and take
the lock of the topics. Between its two sections a call is pending, and the sections of any
other calls may run. `register_client` and `unsubscribe` are one section each; `update_filter`
and the dispatches change neither the index nor who is registered.

Two ghost fields tell the registrations of one client id apart: `removals` counts how often
the id has been unregistered, and `subscriber` is that count when the subscription behind a
bit of the index was checked.
-/

namespace ChainMarketPrice.Distribution
namespace RouterInterleaving

/-- A call that has run its first section. -/
inductive Pending
  | insertIntoTopic (clientId : UInt32) (topic : TopicKey) (seen : ℕ)
  | removeFromTopics (clientId : UInt32)
deriving Repr, DecidableEq

/-- The router, the calls between their sections, and the ghost fields. -/
structure State where
  router : InvertedTopicRouter
  pending : List Pending
  removals : UInt32 → ℕ
  subscriber : TopicKey → UInt32 → ℕ

/-- One section of some call. `finish i` runs the second section of the `i`-th pending call. -/
inductive Action
  | registerClient (session : ClientSession)
  | unsubscribe (clientId : UInt32) (topic : TopicKey)
  | startUnregister (clientId : UInt32)
  | startSubscribe (clientId : UInt32) (topic : TopicKey)
  | finish (i : ℕ)
deriving Repr, DecidableEq

/-- The first section of `unregister_client`. -/
def startUnregister (s : State) (c : UInt32) : State :=
  match s.router.removeClient c with
  | some router =>
    { s with
      router := router
      pending := s.pending ++ [.removeFromTopics c]
      removals := Function.update s.removals c (s.removals c + 1) }
  | none => s -- `ClientNotFound`

/-- The first section of `subscribe`. -/
def startSubscribe (s : State) (c : UInt32) (t : TopicKey) : State :=
  match s.router.markSubscribed c with
  | some router =>
    { s with
      router := router
      pending := s.pending ++ [.insertIntoTopic c t (s.removals c)] }
  | none => s -- `ClientNotFound`

/-- The second section of a call. -/
def finishCall (s : State) : Pending → State
  | .insertIntoTopic c t seen =>
    { s with
      router := s.router.insertIntoTopic c t
      subscriber := Function.update s.subscriber t (Function.update (s.subscriber t) c seen) }
  | .removeFromTopics c => { s with router := s.router.removeFromTopics c }

def step (s : State) : Action → Option State
  | .registerClient session => some { s with router := (s.router.registerClient session).2 }
  | .unsubscribe c t => some { s with router := (s.router.unsubscribe c t).2 }
  | .startUnregister c => some (startUnregister s c)
  | .startSubscribe c t => some (startSubscribe s c t)
  | .finish i =>
    match s.pending[i]? with
    | some call => some (finishCall { s with pending := s.pending.eraseIdx i } call)
    | none => none

/-- A fresh router and no call in progress. -/
def machine : Machine State Action where
  init := { router := .new, pending := [], removals := fun _ => 0, subscriber := fun _ _ => 0 }
  step := step

/-- The client is in the client map. -/
def State.Registered (s : State) (c : UInt32) : Prop := (s.router.clients.lookup c).isSome = true

instance decidableRegistered (s : State) (c : UInt32) : Decidable (s.Registered c) :=
  inferInstanceAs (Decidable (_ = true))

/-- A call may run its second section without leaving a ghost: it is the cleanup of an
`unregister_client`, or a `subscribe` whose client has not been unregistered since it was
checked, or whose unregistered client still has the cleanup to come. -/
def State.MayFinish (s : State) : Pending → Prop
  | .insertIntoTopic c _ seen => seen = s.removals c ∨ .removeFromTopics c ∈ s.pending
  | .removeFromTopics _ => True

instance decidableMayFinish (s : State) : ∀ call, Decidable (s.MayFinish call)
  | .insertIntoTopic c _ seen =>
    inferInstanceAs (Decidable (seen = s.removals c ∨ .removeFromTopics c ∈ s.pending))
  | .removeFromTopics _ => inferInstanceAs (Decidable True)

/-- The steps that finish no `subscribe` too late. -/
def InTime (s : State) : Action → Prop
  | .finish i => ∀ call ∈ s.pending[i]?, s.MayFinish call
  | _ => True

instance decidableInTime (s : State) : ∀ a, Decidable (InTime s a)
  | .finish i => inferInstanceAs (Decidable (∀ call ∈ s.pending[i]?, s.MayFinish call))
  | .registerClient _ | .unsubscribe _ _ | .startUnregister _ | .startSubscribe _ _ =>
    inferInstanceAs (Decidable True)

end RouterInterleaving
end ChainMarketPrice.Distribution
