import ChainMarketPrice.Lib.History
import ChainMarketPrice.Distribution.Dispatch

/-!
# Dispatch and the subscription relation

`Registered` and `Subscribed` say who is subscribed to what by the history of calls alone.
The inverted index and the client map follow that history (`Follows`), so that a dispatch
reaches exactly the subscribed clients that pass their filter and obtain a token
(`dispatchBbo_refines`).
-/

namespace ChainMarketPrice.Distribution
namespace InvertedTopicRouter

open FiniteMap History

/-! ## The best bid and offer -/

/-- The payload of a best bid and offer: `encode_bbo_sbe` or `serialize_bbo_json` on the
router's buffers. -/
def bboPayload (bbo : NormalizedBbo) : WireProtocol → List UInt8
  | .sbe =>
    let result := Sbe.encodeBboSbe bbo (List.replicate Sbe.totalSbeBboLen 0)
    result.2.take (result.1.toOption.getD 0)
  | .json =>
    let result := FastJson.serializeBboJson bbo (List.replicate 512 0)
    result.2.take (result.1.toOption.getD 0)

lemma bboOutbound_payload (bbo : NormalizedBbo) (p : WireProtocol) :
    (bboOutbound bbo).payload p = bboPayload bbo p := by
  rcases p with _ | _ <;>
    simp only [Outbound.payload, encoded, bboOutbound, bboPayload, Prod.map_fst, Prod.map_snd, id]

/-- The bit of a client in the bitmap of a topic. -/
def Indexed (r : InvertedTopicRouter) (topic : TopicKey) (clientId : UInt32) : Prop :=
  ((r.topics.lookup topic).getD .new).contains clientId = true

instance decidableIndexed (r : InvertedTopicRouter) (topic : TopicKey) (clientId : UInt32) :
    Decidable (r.Indexed topic clientId) :=
  inferInstanceAs (Decidable (_ = true))

/-- The candidates are the clients indexed under the exact or the default topic. -/
lemma mem_bboCandidates (r : InvertedTopicRouter) (bbo : NormalizedBbo) (clientId : UInt32) :
    clientId ∈ (r.bboCandidates bbo).ids ↔
      r.Indexed (exactTopic bbo) clientId ∨ r.Indexed (defaultTopic bbo) clientId := by
  rw [ClientBitmap.mem_ids, bboCandidates]
  split
  · rw [ClientBitmap.contains_eq, ClientBitmap.bit_union, Bool.or_eq_true,
      ← ClientBitmap.contains_eq, ← ClientBitmap.contains_eq]
    rfl
  · rename_i heq
    rw [not_not] at heq
    rw [← heq]
    exact (or_self_iff).symm

/-! ## The index and the client map after each operation -/

lemma indexed_iff {r : InvertedTopicRouter} {topic : TopicKey} {clientId : UInt32} :
    r.Indexed topic clientId ↔
      ((r.topics.lookup topic).getD .new).bit clientId.toNat = true := by
  rw [Indexed, ClientBitmap.contains_eq]

lemma indexed_insertIntoTopic (r : InvertedTopicRouter) (c c' : UInt32) (t t' : TopicKey) :
    (r.insertIntoTopic c t).Indexed t' c' ↔
      r.Indexed t' c' ∨ t' = t ∧ c' = c ∧ c.toNat < maxClientCapacity := by
  rw [indexed_iff, indexed_iff, insertIntoTopic, lookup_insert_eq]
  by_cases ht : t' = t
  · rw [if_pos ht, ht, Option.getD_some, ClientBitmap.bit_insert, Bool.or_eq_true,
      decide_eq_true_eq, UInt32.toNat_inj]
    constructor
    · rintro (h | ⟨hc, hlt⟩)
      · exact .inl h
      · exact .inr ⟨rfl, hc, hc ▸ hlt⟩
    · rintro (h | ⟨-, hc, hlt⟩)
      · exact .inl h
      · exact .inr ⟨hc, hc ▸ hlt⟩
  · simp [ht]

lemma indexed_removeFromTopics (r : InvertedTopicRouter) (c c' : UInt32) (t : TopicKey) :
    (r.removeFromTopics c).Indexed t c' ↔ r.Indexed t c' ∧ c' ≠ c := by
  rw [indexed_iff, indexed_iff, removeFromTopics, lookup_retain, lookup_mapValues]
  rcases r.topics.lookup t with _ | bitmap
  · simp [ClientBitmap.bit_new]
  · rw [Option.map_some, Option.getD_some]
    have hbit := ClientBitmap.bit_remove bitmap c c'.toNat
    by_cases hempty : (bitmap.remove c).2.isEmpty = true
    · rw [(ClientBitmap.isEmpty_iff _).mp hempty] at hbit
      have hiff := congrArg (· = true) hbit
      simp only [Bool.false_eq_true, Bool.and_eq_true, decide_eq_true_eq, ne_eq,
        UInt32.toNat_inj] at hiff
      simp [Option.filter_some, hempty, ClientBitmap.bit_new, ← hiff]
    · simp only [Option.filter_some, hempty, Bool.not_false, if_true, Option.getD_some, hbit,
        Bool.and_eq_true, decide_eq_true_eq, ne_eq, UInt32.toNat_inj]

lemma indexed_unsubscribe (r : InvertedTopicRouter) (c c' : UInt32) (t t' : TopicKey) :
    (r.unsubscribe c t).2.Indexed t' c' ↔ r.Indexed t' c' ∧ ¬ (t' = t ∧ c' = c) := by
  rw [unsubscribe]
  rcases hlookup : r.topics.lookup t with _ | bitmap
  · constructor
    · intro h
      refine ⟨h, ?_⟩
      rintro ⟨rfl, -⟩
      rw [indexed_iff, hlookup, Option.getD_none, ClientBitmap.bit_new] at h
      cases h
    · exact fun h => h.1
  · rw [indexed_iff, indexed_iff, lookup_insert_eq]
    by_cases ht : t' = t
    · rw [if_pos ht, ht, hlookup, Option.getD_some, Option.getD_some, ClientBitmap.bit_remove,
        Bool.and_eq_true, decide_eq_true_eq, Ne, UInt32.toNat_inj]
      simp
    · simp [ht]

/-- A registration does not touch the index. -/
lemma topics_registerClient (r : InvertedTopicRouter) (session : ClientSession) :
    (r.registerClient session).2.topics = r.topics := by
  unfold registerClient
  dsimp only
  cases r.clients.lookup session.id <;> rfl

lemma indexed_congr {r r' : InvertedTopicRouter} (h : r'.topics = r.topics) (t : TopicKey)
    (c : UInt32) : r'.Indexed t c ↔ r.Indexed t c := by
  rw [Indexed, Indexed, h]

/-! ## Histories of calls -/

/-- One complete call on the router. -/
inductive Op
  | register (session : ClientSession)
  | unregister (clientId : UInt32)
  | subscribe (clientId : UInt32) (topic : TopicKey)
  | unsubscribe (clientId : UInt32) (topic : TopicKey)
  | updateFilter (clientId : UInt32) (filter : ClientFilterPredicate)
  | dispatchBbo (bbo : NormalizedBbo) (nowMs : UInt64)
deriving Repr, DecidableEq

/-- The client an operation names. -/
def Op.clientId? : Op → Option UInt32
  | .register session => some session.id
  | .unregister c | .subscribe c _ | .unsubscribe c _ | .updateFilter c _ => some c
  | .dispatchBbo _ _ => none

/-- The router after a call. -/
def apply (r : InvertedTopicRouter) : Op → InvertedTopicRouter
  | .register session => (r.registerClient session).2
  | .unregister c => (r.unregisterClient c).2
  | .subscribe c t => (r.subscribe c t).2
  | .unsubscribe c t => (r.unsubscribe c t).2
  | .updateFilter c filter => (r.updateFilter c filter).2
  | .dispatchBbo bbo nowMs => (r.dispatchBbo bbo nowMs).1

/-- The router after a sequence of calls on a fresh one. -/
def run (ops : List Op) : InvertedTopicRouter := ops.foldl apply new

/-- By the history, the client has been registered and not unregistered since. -/
def Registered (c : UInt32) : List Op → Prop :=
  Since (fun _ op => ∃ session, op = .register session ∧ session.id = c)
    (fun op => op ≠ .unregister c)

/-- Only these two calls change who is registered. -/
lemma registered_concat {c : UInt32} {ops : List Op} {op : Op}
    (hregister : ∀ session, op ≠ .register session) (hunregister : op ≠ .unregister c) :
    Registered c (ops ++ [op]) ↔ Registered c ops := by
  rw [Registered, since_concat]
  constructor
  · rintro (⟨session, heq, -⟩ | ⟨hreg, -⟩)
    · exact absurd heq (hregister session)
    · exact hreg
  · exact fun hreg => .inr ⟨hreg, hunregister⟩

/-- By the history, the registered client has subscribed and neither unsubscribed nor been
unregistered since. -/
def Subscribed (c : UInt32) (t : TopicKey) : List Op → Prop :=
  Since (fun before op => op = .subscribe c t ∧ Registered c before)
    (fun op => op ≠ .unregister c ∧ op ≠ .unsubscribe c t)

/-- The maps follow the history, as far as the bitmaps have a bit for the client; indexed
clients are in the state `Subscribed`. -/
structure Follows (r : InvertedTopicRouter) (ops : List Op) : Prop where
  registered : ∀ c, (r.clients.lookup c).isSome ↔ Registered c ops
  indexed : ∀ t c, r.Indexed t c ↔ Subscribed c t ops ∧ c.toNat < maxClientCapacity
  active : ∀ t c, r.Indexed t c →
    ∃ session, r.clients.lookup c = some session ∧ session.state = .subscribed

lemma follows_new : Follows new [] where
  registered := fun c => by
    simp only [Registered, not_since_nil, iff_false]
    simp [new]
  indexed := fun t c => by
    simp only [Subscribed, not_since_nil, false_and, iff_false, indexed_iff]
    simp [new, ClientBitmap.bit_new]
  active := fun t c h => by
    simp [indexed_iff, new, ClientBitmap.bit_new] at h

/-- Operations that change neither who is registered nor the index. -/
lemma Follows.of_same {r r' : InvertedTopicRouter} {ops : List Op} {op : Op}
    (h : Follows r ops) (htopics : r'.topics = r.topics)
    (habsent : ∀ c, r.clients.lookup c = none → r'.clients.lookup c = none)
    (hsame : ∀ c session, r.clients.lookup c = some session →
      ∃ session', r'.clients.lookup c = some session' ∧ session'.state = session.state)
    (hregister : ∀ session, op = .register session → Registered session.id ops)
    (hunregister : ∀ c, op = .unregister c → ¬ Registered c ops)
    (hsubscribe : ∀ c t, op = .subscribe c t → ¬ Registered c ops)
    (hunsubscribe : ∀ c t, op = .unsubscribe c t → ¬ Subscribed c t ops) :
    Follows r' (ops ++ [op]) := by
  -- who is registered is read off the keys of the map
  have hsome : ∀ c, (r'.clients.lookup c).isSome ↔ (r.clients.lookup c).isSome := by
    intro c
    rcases hc : r.clients.lookup c with _ | session
    · rw [habsent c hc]
    · obtain ⟨session', hc', -⟩ := hsame c session hc
      rw [hc']
      simp
  refine ⟨?_, ?_, ?_⟩
  · intro c
    rw [hsome, h.registered, Registered, since_concat]
    constructor
    · intro hreg
      refine .inr ⟨hreg, ?_⟩
      rintro rfl
      exact hunregister c rfl hreg
    · rintro (⟨session, rfl, rfl⟩ | ⟨hreg, -⟩)
      · exact hregister session rfl
      · exact hreg
  · intro t c
    rw [indexed_congr htopics, h.indexed]
    refine and_congr_left fun hcap => ?_
    rw [Subscribed, since_concat]
    constructor
    · intro hsub
      refine .inr ⟨hsub, ?_, ?_⟩
      · rintro rfl
        obtain ⟨session, hc, -⟩ := h.active t c ((h.indexed t c).mpr ⟨hsub, hcap⟩)
        exact hunregister c rfl ((h.registered c).mp (by rw [hc]; rfl))
      · rintro rfl
        exact hunsubscribe c t rfl hsub
    · rintro (⟨rfl, hreg⟩ | ⟨hsub, -⟩)
      · exact absurd hreg (hsubscribe c t rfl)
      · exact hsub
  · intro t c hidx
    obtain ⟨session, hc, hstate⟩ := h.active t c ((indexed_congr htopics t c).mp hidx)
    obtain ⟨session', hc', hstate'⟩ := hsame c session hc
    exact ⟨session', hc', hstate'.trans hstate⟩

lemma not_registered_of_lookup {r : InvertedTopicRouter} {ops : List Op} (h : Follows r ops)
    {c : UInt32} (hc : r.clients.lookup c = none) : ¬ Registered c ops := by
  rw [← h.registered c, hc]
  simp

lemma registered_of_lookup {r : InvertedTopicRouter} {ops : List Op} (h : Follows r ops)
    {c : UInt32} {session : ClientSession} (hc : r.clients.lookup c = some session) :
    Registered c ops := by
  rw [← h.registered c, hc]
  rfl

/-- A call that fails, or changes no more than a filter or a bucket. -/
lemma Follows.of_unchanged {r : InvertedTopicRouter} {ops : List Op} {op : Op} (h : Follows r ops)
    (hregister : ∀ session, op = .register session → Registered session.id ops)
    (hunregister : ∀ c, op = .unregister c → ¬ Registered c ops)
    (hsubscribe : ∀ c t, op = .subscribe c t → ¬ Registered c ops)
    (hunsubscribe : ∀ c t, op = .unsubscribe c t → ¬ Subscribed c t ops) :
    Follows r (ops ++ [op]) :=
  h.of_same rfl (fun _ h => h) (fun _ session h => ⟨session, h, rfl⟩) hregister hunregister
    hsubscribe hunsubscribe

lemma follows_register {r : InvertedTopicRouter} {ops : List Op} (h : Follows r ops)
    (session : ClientSession) :
    Follows (r.registerClient session).2 (ops ++ [.register session]) := by
  rw [registerClient]
  rcases hid : r.clients.lookup session.id with _ | old
  · refine ⟨?_, ?_, ?_⟩
    · intro c
      rw [Registered, since_concat, lookup_insert_eq]
      by_cases hc : c = session.id
      · rw [if_pos hc]
        simp only [Option.isSome_some, true_iff]
        exact .inl ⟨session, rfl, hc.symm⟩
      · rw [if_neg hc, h.registered]
        constructor
        · exact fun hreg => .inr ⟨hreg, by simp⟩
        · rintro (⟨session', heq, hid'⟩ | ⟨hreg, -⟩)
          · cases heq
            exact absurd hid'.symm hc
          · exact hreg
    · intro t c
      refine (h.indexed t c).trans (and_congr_left fun _ => ?_)
      rw [Subscribed, since_concat]
      refine ⟨fun hsub => .inr ⟨hsub, by simp, by simp⟩, ?_⟩
      rintro (⟨heq, -⟩ | ⟨hsub, -⟩)
      · cases heq
      · exact hsub
    · intro t c hidx
      obtain ⟨old, hc, hstate⟩ := h.active t c hidx
      refine ⟨old, ?_, hstate⟩
      rw [lookup_insert_eq, if_neg]
      · exact hc
      · rintro rfl
        rw [hid] at hc
        cases hc
  -- the id is taken, and the call is refused
  · refine h.of_unchanged ?_ ?_ ?_ ?_
    · intro session' heq
      cases heq
      exact registered_of_lookup h hid
    all_goals simp

lemma follows_unregister {r : InvertedTopicRouter} {ops : List Op} (h : Follows r ops)
    (c0 : UInt32) : Follows (r.unregisterClient c0).2 (ops ++ [.unregister c0]) := by
  rw [unregisterClient, removeClient]
  rcases hid : r.clients.lookup c0 with _ | old
  · -- an unknown client leaves no trace
    refine h.of_unchanged ?_ ?_ ?_ ?_
    · simp
    · intro c heq
      cases heq
      exact not_registered_of_lookup h hid
    all_goals simp
  · -- a known one leaves the table and every topic
    refine ⟨?_, ?_, ?_⟩
    · intro c
      have hlook : ((({ r with clients := r.clients.erase c0 } : InvertedTopicRouter).removeFromTopics
          c0).clients.lookup c) = if c = c0 then none else r.clients.lookup c :=
        lookup_erase_eq _ _ _
      dsimp only
      rw [hlook, Registered, since_concat]
      by_cases hc : c = c0
      · rw [if_pos hc, hc]
        simp
      · rw [if_neg hc, h.registered]
        have hne : Op.unregister c0 ≠ .unregister c := by
          intro heq
          cases heq
          exact hc rfl
        constructor
        · exact fun hreg => .inr ⟨hreg, hne⟩
        · rintro (⟨session, heq, -⟩ | ⟨hreg, -⟩)
          · cases heq
          · exact hreg
    · intro t c
      dsimp only
      rw [indexed_removeFromTopics]
      have htopics : ({ r with clients := r.clients.erase c0 } : InvertedTopicRouter).Indexed t c
          ↔ r.Indexed t c := indexed_congr rfl t c
      rw [htopics, h.indexed, and_right_comm]
      refine and_congr_left fun _ => ?_
      rw [Subscribed, since_concat]
      constructor
      · rintro ⟨hsub, hc⟩
        refine .inr ⟨hsub, ?_, by simp⟩
        intro heq
        cases heq
        exact hc rfl
      · rintro (⟨heq, -⟩ | ⟨hsub, hne, -⟩)
        · cases heq
        · exact ⟨hsub, fun hc => hne (by rw [hc])⟩
    · intro t c hidx
      dsimp only at hidx ⊢
      rw [indexed_removeFromTopics] at hidx
      obtain ⟨hidx, hc⟩ := hidx
      obtain ⟨session, hlook, hstate⟩ := h.active t c ((indexed_congr rfl t c).mp hidx)
      refine ⟨session, ?_, hstate⟩
      exact (lookup_erase_eq _ _ _).trans (by rw [if_neg hc]; exact hlook)

lemma follows_subscribe {r : InvertedTopicRouter} {ops : List Op} (h : Follows r ops)
    (c0 : UInt32) (t0 : TopicKey) :
    Follows (r.subscribe c0 t0).2 (ops ++ [.subscribe c0 t0]) := by
  rw [InvertedTopicRouter.subscribe, markSubscribed]
  rcases hid : r.clients.lookup c0 with _ | session
  · refine h.of_unchanged (by simp) (by simp) ?_ (by simp)
    intro c t heq
    cases heq
    exact not_registered_of_lookup h hid
  · -- the session is marked first, then the client joins the topic's index
    set r1 : InvertedTopicRouter :=
      { r with clients := r.clients.insert c0 (session.setState .subscribed) } with hr1
    have hlook : ∀ c, (r1.insertIntoTopic c0 t0).clients.lookup c
        = if c = c0 then some (session.setState .subscribed) else r.clients.lookup c :=
      fun c => lookup_insert_eq _ _ _ _
    have hidx1 : ∀ t c, r1.Indexed t c ↔ r.Indexed t c := indexed_congr rfl
    refine ⟨?_, ?_, ?_⟩
    · intro c
      dsimp only
      rw [hlook]
      have hsome : (if c = c0 then some (session.setState .subscribed)
          else r.clients.lookup c).isSome ↔ Registered c ops := by
        by_cases hc : c = c0
        · rw [if_pos hc, hc]
          simp [registered_of_lookup h hid]
        · rw [if_neg hc, h.registered]
      rw [hsome, registered_concat (by simp) (by simp)]
    · intro t c
      dsimp only
      rw [indexed_insertIntoTopic, hidx1, h.indexed, Subscribed, since_concat]
      constructor
      · rintro (⟨hsub, hcap⟩ | ⟨rfl, rfl, hcap⟩)
        · exact ⟨.inr ⟨hsub, by simp, by simp⟩, hcap⟩
        · exact ⟨.inl ⟨rfl, registered_of_lookup h hid⟩, hcap⟩
      · rintro ⟨⟨heq, -⟩ | ⟨hsub, -⟩, hcap⟩
        · cases heq
          exact .inr ⟨rfl, rfl, hcap⟩
        · exact .inl ⟨hsub, hcap⟩
    · intro t c hidx
      dsimp only at hidx ⊢
      rw [hlook]
      by_cases hc : c = c0
      · rw [if_pos hc]
        exact ⟨_, rfl, rfl⟩
      · rw [if_neg hc]
        rw [indexed_insertIntoTopic, hidx1] at hidx
        rcases hidx with hidx | ⟨-, heq, -⟩
        · exact h.active t c hidx
        · exact absurd heq hc

lemma follows_unsubscribe {r : InvertedTopicRouter} {ops : List Op} (h : Follows r ops)
    (c0 : UInt32) (t0 : TopicKey) :
    Follows (r.unsubscribe c0 t0).2 (ops ++ [.unsubscribe c0 t0]) := by
  have hclients : (r.unsubscribe c0 t0).2.clients = r.clients := by
    rw [InvertedTopicRouter.unsubscribe]
    split <;> rfl
  refine ⟨?_, ?_, ?_⟩
  · intro c
    rw [hclients, h.registered, registered_concat (by simp) (by simp)]
  · intro t c
    rw [indexed_unsubscribe, h.indexed, and_right_comm]
    refine and_congr_left fun _ => ?_
    rw [Subscribed, since_concat]
    constructor
    -- the operation counts as a removal for this pair alone
    · rintro ⟨hsub, hne⟩
      refine .inr ⟨hsub, by simp, ?_⟩
      intro heq
      cases heq
      exact hne ⟨rfl, rfl⟩
    · rintro (⟨heq, -⟩ | ⟨hsub, -, hne⟩)
      · cases heq
      · exact ⟨hsub, fun heq => hne (by rw [heq.1, heq.2])⟩
  · intro t c hidx
    rw [indexed_unsubscribe] at hidx
    rw [hclients]
    exact h.active t c hidx.1

lemma follows_updateFilter {r : InvertedTopicRouter} {ops : List Op} (h : Follows r ops)
    (c0 : UInt32) (filter : ClientFilterPredicate) :
    Follows (r.updateFilter c0 filter).2 (ops ++ [.updateFilter c0 filter]) := by
  rw [InvertedTopicRouter.updateFilter]
  rcases hid : r.clients.lookup c0 with _ | session
  · exact h.of_unchanged (by simp) (by simp) (by simp) (by simp)
  · refine h.of_same rfl ?_ ?_ (by simp) (by simp) (by simp) (by simp)
    · intro c hc
      dsimp only
      rw [lookup_insert_eq, if_neg]
      · exact hc
      · rintro rfl
        rw [hid] at hc
        cases hc
    · intro c s hc
      dsimp only
      rw [lookup_insert_eq]
      by_cases heq : c = c0
      · rw [heq, hid] at hc
        cases hc
        rw [if_pos heq]
        exact ⟨_, rfl, rfl⟩
      · rw [if_neg heq]
        exact ⟨s, hc, rfl⟩

/-- Indexed clients are registered and active. -/
lemma Follows.allActive {r : InvertedTopicRouter} {ops : List Op} (h : Follows r ops)
    {ids : List UInt32} (hids : ∀ c ∈ ids, ∃ t, r.Indexed t c) : AllActive r.clients ids := by
  intro c hc
  obtain ⟨t, hindexed⟩ := hids c hc
  obtain ⟨session, hlookup, hstate⟩ := h.active t c hindexed
  refine ⟨session, hlookup, ?_⟩
  rw [ClientSession.isActive, hstate]
  rfl

/-- A dispatch of any event leaves the maps in step with the history. -/
lemma Follows.dispatch {r : InvertedTopicRouter} {ops : List Op} (h : Follows r ops)
    {out : Outbound} (hout : out.Whole) (candidates : ClientBitmap) (nowMs : UInt64) :
    Follows (r.dispatch out candidates nowMs).1 ops := by
  have hacc := accounts_dispatch r hout candidates nowMs
  have htopics := topics_dispatch r out candidates nowMs
  refine ⟨?_, ?_, ?_⟩
  · intro c
    rw [← h.registered c, hacc.clients]
    split
    · rw [Option.isSome_map]
    · rfl
  · intro t c
    rw [indexed_congr htopics, h.indexed]
  · intro t c hindexed
    obtain ⟨session, hlookup, hstate⟩ := h.active t c ((indexed_congr htopics t c).mp hindexed)
    rw [hacc.clients, hlookup]
    split
    · exact ⟨serve out nowMs session, rfl, (sameClient_serve out nowMs session).2.2.1.trans hstate⟩
    · exact ⟨session, rfl, hstate⟩

lemma follows_dispatchBbo {r : InvertedTopicRouter} {ops : List Op} (h : Follows r ops)
    (bbo : NormalizedBbo) (nowMs : UInt64) :
    Follows (r.dispatchBbo bbo nowMs).1 (ops ++ [.dispatchBbo bbo nowMs]) :=
  (h.dispatch (whole_bbo bbo) (r.bboCandidates bbo) nowMs).of_unchanged (by simp) (by simp)
    (by simp) (by simp)

/-- Every call keeps the maps in step with the history. -/
lemma follows_apply {r : InvertedTopicRouter} {ops : List Op} (h : Follows r ops) (op : Op) :
    Follows (r.apply op) (ops ++ [op]) := by
  rcases op with session | c | ⟨c, t⟩ | ⟨c, t⟩ | ⟨c, filter⟩ | ⟨bbo, nowMs⟩
  · exact follows_register h session
  · exact follows_unregister h c
  · exact follows_subscribe h c t
  · exact follows_unsubscribe h c t
  · exact follows_updateFilter h c filter
  · exact follows_dispatchBbo h bbo nowMs

/-- After any sequence of calls the maps are in step with it. -/
lemma follows_run (ops : List Op) : Follows (run ops) ops := by
  induction ops using List.reverseRecOn with
  | nil => exact follows_new
  | append_singleton ops op ih =>
    rw [run, List.foldl_append]
    exact follows_apply ih op

/-! ## The refinement -/

/-- By the history, the client is registered and subscribed to the exact or the default topic
of a best bid and offer. -/
def Matched (ops : List Op) (bbo : NormalizedBbo) (c : UInt32) : Prop :=
  Registered c ops ∧ (Subscribed c (exactTopic bbo) ops ∨ Subscribed c (defaultTopic bbo) ops)

/-- The client's spread filter lets the event through. -/
def PassesSpread (session : ClientSession) (bbo : NormalizedBbo) : Prop :=
  session.filter.maxSpreadBps = 0 ∨
    bbo.spreadBps.toNat ≤ session.filter.maxSpreadBps.toNat

lemma accepts_bboOutbound (filter : ClientFilterPredicate) (bbo : NormalizedBbo) :
    (bboOutbound bbo).accepts filter = true ↔
      filter.maxSpreadBps = 0 ∨ bbo.spreadBps.toNat ≤ filter.maxSpreadBps.toNat := by
  simp only [bboOutbound, Bool.not_eq_true', Bool.and_eq_false_iff,
    decide_eq_false_iff_not, gt_iff_lt, UInt32.lt_iff_toNat_lt, UInt16.toNat_toUInt32,
    ← UInt32.toNat_inj, UInt32.toNat_zero]
  omega

/-- The candidates of a dispatch are the matched clients that the bitmaps have a bit for. -/
lemma Follows.mem_ids_iff {r : InvertedTopicRouter} {ops : List Op} (h : Follows r ops)
    (bbo : NormalizedBbo) (c : UInt32) :
    c ∈ (r.bboCandidates bbo).ids ↔ Matched ops bbo c ∧ c.toNat < maxClientCapacity := by
  rw [mem_bboCandidates, Matched, h.indexed, h.indexed, ← or_and_right]
  refine and_congr_left fun hcap => ?_
  constructor
  · intro hsub
    refine ⟨?_, hsub⟩
    have hindexed : ∃ t, r.Indexed t c := by
      rcases hsub with hsub | hsub
      · exact ⟨_, (h.indexed _ c).mpr ⟨hsub, hcap⟩⟩
      · exact ⟨_, (h.indexed _ c).mpr ⟨hsub, hcap⟩⟩
    obtain ⟨t, hindexed⟩ := hindexed
    obtain ⟨session, hlook, -⟩ := h.active t c hindexed
    exact registered_of_lookup h hlook
  · exact fun hsub => hsub.2

/-- A dispatch in step with a history reaches the clients that it subscribes, as far as the
bitmaps have a bit for them. -/
lemma Follows.dispatchBbo_spec {r : InvertedTopicRouter} {ops : List Op} (h : Follows r ops)
    (bbo : NormalizedBbo) (nowMs : UInt64) :
    let metrics := (r.dispatchBbo bbo nowMs).2.1
    let sent := (r.dispatchBbo bbo nowMs).2.2
    (sent.map (·.clientId)).Pairwise (· < ·) ∧
    (∀ c p payload, ⟨c, p, payload⟩ ∈ sent ↔
      (Matched ops bbo c ∧ c.toNat < maxClientCapacity) ∧
      ∃ session, r.clients.lookup c = some session ∧ PassesSpread session bbo ∧
        (session.rateLimiter.tryConsume 1 nowMs).1 = true ∧
        p = session.protocol ∧ payload = bboPayload bbo p) ∧
    metrics.deliveredClients = sent.length ∧
    metrics.matchedClients
      = metrics.deliveredClients + metrics.filteredClients + metrics.rateLimitedClients ∧
    ∃ subscribed : List UInt32, subscribed.Nodup ∧
      (∀ c, c ∈ subscribed ↔ Matched ops bbo c ∧ c.toNat < maxClientCapacity) ∧
      metrics.matchedClients = subscribed.length := by
  have hindexed : ∀ c ∈ (r.bboCandidates bbo).ids, ∃ t, r.Indexed t c := by
    intro c hc
    rcases (mem_bboCandidates r bbo c).mp hc with hc | hc
    · exact ⟨_, hc⟩
    · exact ⟨_, hc⟩
  obtain ⟨hincreasing, hsent, hmetrics⟩ :=
    dispatch_spec (whole_bbo bbo) nowMs (h.allActive hindexed) (h.mem_ids_iff bbo)
  refine ⟨hincreasing, ?_, hmetrics⟩
  intro c p payload
  rw [← bboOutbound_payload]
  refine (hsent c p payload).trans (and_congr_right fun _ => exists_congr fun session => ?_)
  rw [obtains_iff, accepts_bboOutbound, and_assoc]
  exact Iff.rfl

/-- Who the sink of a dispatch is called for, with what. -/
lemma Follows.mem_sent_iff {r : InvertedTopicRouter} {ops : List Op} (h : Follows r ops)
    (bbo : NormalizedBbo) (nowMs : UInt64) (c : UInt32) (p : WireProtocol) (payload : List UInt8) :
    ⟨c, p, payload⟩ ∈ (r.dispatchBbo bbo nowMs).2.2 ↔
      (Matched ops bbo c ∧ c.toNat < maxClientCapacity) ∧
      ∃ session, r.clients.lookup c = some session ∧ PassesSpread session bbo ∧
        (session.rateLimiter.tryConsume 1 nowMs).1 = true ∧
        p = session.protocol ∧ payload = bboPayload bbo p :=
  (h.dispatchBbo_spec bbo nowMs).2.1 c p payload

/-- Two clients of either protocol on the default topic of an event. -/
def fanoutOps : List Op :=
  [.register (.new 3 .sbe 1000 10 0), .register (.new 5 .json 1000 10 0),
    .subscribe 3 (defaultTopic {}), .subscribe 5 (defaultTopic {})]

end InvertedTopicRouter
end ChainMarketPrice.Distribution
