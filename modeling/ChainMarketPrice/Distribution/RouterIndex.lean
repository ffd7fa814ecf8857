import Mathlib.Data.Set.Card
import ChainMarketPrice.Distribution.RouterTheorems

/-!
# The topic index over runs

What a call does to the bits and the entries of the index. A bit stays until its client
unsubscribes or is unregistered, so that a subscription takes effect for every id the bitmaps
have a bit for (`subscribe_takes_effect_iff`). An entry is removed only when a client is
unregistered, so that a run keeps the table free of dead topics exactly when none of its calls
leaves an empty bitmap behind (`topics_live_iff`).
-/

namespace ChainMarketPrice.Distribution
namespace InvertedTopicRouter

open FiniteMap

/-- Any call on the router. -/
inductive Call
  | op (op : Op)
  | dispatchTrade (trade : UnifiedTrade) (matchesTrade : ClientFilterPredicate → Bool)
      (nowMs : UInt64)

def applyCall (r : InvertedTopicRouter) : Call → InvertedTopicRouter
  | .op op => r.apply op
  | .dispatchTrade trade matchesTrade nowMs => (r.dispatchTrade trade matchesTrade nowMs).1

def runCalls (r : InvertedTopicRouter) (calls : List Call) : InvertedTopicRouter :=
  calls.foldl applyCall r

/-! ## What a call does to the index -/

lemma topics_updateFilter (r : InvertedTopicRouter) (c : UInt32) (filter : ClientFilterPredicate) :
    (r.updateFilter c filter).2.topics = r.topics := by
  unfold updateFilter
  cases r.clients.lookup c <;> rfl

/-- The calls that change the index. -/
def Call.isIndexing : Call → Bool
  | .op (.unregister _) | .op (.subscribe _ _) | .op (.unsubscribe _ _) => true
  | _ => false

lemma Call.isIndexing_cases {call : Call} (h : call.isIndexing = true) :
    (∃ c, call = .op (.unregister c)) ∨ (∃ c t, call = .op (.subscribe c t)) ∨
      ∃ c t, call = .op (.unsubscribe c t) := by
  cases call with
  | op op =>
    cases op with
    | register session => cases h
    | unregister c => exact .inl ⟨c, rfl⟩
    | subscribe c t => exact .inr (.inl ⟨c, t, rfl⟩)
    | unsubscribe c t => exact .inr (.inr ⟨c, t, rfl⟩)
    | updateFilter c filter => cases h
    | dispatchBbo bbo nowMs => cases h
  | dispatchTrade trade matchesTrade nowMs => cases h

lemma topics_applyCall {call : Call} (h : call.isIndexing = false) (r : InvertedTopicRouter) :
    (r.applyCall call).topics = r.topics := by
  cases call with
  | op op =>
    cases op with
    | register session => exact topics_registerClient r session
    | unregister c => cases h
    | subscribe c t => cases h
    | unsubscribe c t => cases h
    | updateFilter c filter => exact topics_updateFilter r c filter
    | dispatchBbo bbo nowMs => exact topics_dispatch r _ _ nowMs
  | dispatchTrade trade matchesTrade nowMs => exact topics_dispatch r _ _ nowMs

/-- A bit of the index stays, unless its client unsubscribes from the topic or is unregistered. -/
lemma indexed_applyCall {r : InvertedTopicRouter} {c : UInt32} {t : TopicKey} {call : Call}
    (h : r.Indexed t c) (hunsubscribe : call ≠ .op (.unsubscribe c t))
    (hunregister : call ≠ .op (.unregister c)) : (r.applyCall call).Indexed t c := by
  cases hcall : call.isIndexing with
  | false => exact (indexed_congr (topics_applyCall hcall r) t c).mpr h
  | true =>
    obtain ⟨c', rfl⟩ | ⟨c', t', rfl⟩ | ⟨c', t', rfl⟩ := Call.isIndexing_cases hcall
    · show (r.unregisterClient c').2.Indexed t c
      unfold unregisterClient removeClient
      cases r.clients.lookup c' with
      | none => exact h
      | some session =>
        refine (indexed_removeFromTopics _ c' c t).mpr ⟨h, ?_⟩
        rintro rfl
        exact hunregister rfl
    · show (r.subscribe c' t').2.Indexed t c
      unfold subscribe markSubscribed
      cases r.clients.lookup c' with
      | none => exact h
      | some session => exact (indexed_insertIntoTopic _ c' c t' t).mpr (.inl h)
    · refine (indexed_unsubscribe r c' c t' t).mpr ⟨h, ?_⟩
      rintro ⟨rfl, rfl⟩
      exact hunsubscribe rfl

/-- Over a whole run. -/
lemma indexed_runCalls {c : UInt32} {t : TopicKey} {later : List Call}
    (hunsubscribe : Call.op (.unsubscribe c t) ∉ later) (hunregister : Call.op (.unregister c) ∉ later)
    {r : InvertedTopicRouter} (h : r.Indexed t c) : (r.runCalls later).Indexed t c := by
  induction later generalizing r with
  | nil => exact h
  | cons call later ih =>
    rw [List.mem_cons, not_or] at hunsubscribe hunregister
    apply ih hunsubscribe.2 hunregister.2
    exact indexed_applyCall h (Ne.symm hunsubscribe.1) (Ne.symm hunregister.1)

lemma lt_of_indexed {r : InvertedTopicRouter} {c : UInt32} {t : TopicKey} (h : r.Indexed t c) :
    c.toNat < maxClientCapacity :=
  ClientBitmap.lt_of_bit (indexed_iff.mp h)

/-! ## Subscriptions that take effect -/

/-- The client is among the candidates of every dispatch on the topic. -/
structure Reached (r : InvertedTopicRouter) (c : UInt32) (t : TopicKey) : Prop where
  topic : c ∈ ((r.topics.lookup t).getD .new).ids
  bbo : ∀ bbo, t = exactTopic bbo ∨ t = defaultTopic bbo → c ∈ (r.bboCandidates bbo).ids
  trade : ∀ trade, t = tradeTopic trade → c ∈ (r.tradeCandidates trade).ids

lemma reached_iff (r : InvertedTopicRouter) (c : UInt32) (t : TopicKey) :
    r.Reached c t ↔ r.Indexed t c := by
  constructor
  · intro h
    exact (ClientBitmap.mem_ids _ c).mp h.topic
  · intro h
    refine ⟨(ClientBitmap.mem_ids _ c).mpr h, ?_, ?_⟩
    · rintro bbo (rfl | rfl)
      · exact (mem_bboCandidates r bbo c).mpr (.inl h)
      · exact (mem_bboCandidates r bbo c).mpr (.inr h)
    · rintro trade rfl
      exact (ClientBitmap.mem_ids _ c).mpr h

/-- If the call returns `Ok`, the client is reached in every later state, until it unsubscribes
from the topic or is unregistered. -/
def SubscribeTakesEffect (r : InvertedTopicRouter) (c : UInt32) (t : TopicKey) : Prop :=
  (r.subscribe c t).1 = .ok () →
    ∀ later : List Call, Call.op (.unsubscribe c t) ∉ later → Call.op (.unregister c) ∉ later →
      ((r.subscribe c t).2.runCalls later).Reached c t

/-- Whether the call succeeds is decided by the client map, what it does by the bitmap: the two
agree on the registered clients with an id below 1024. -/
theorem subscribe_takes_effect_iff (r : InvertedTopicRouter) (c : UInt32) (t : TopicKey) :
    r.SubscribeTakesEffect c t ↔ ((r.clients.lookup c).isSome → c.toNat < 1024) := by
  unfold SubscribeTakesEffect subscribe markSubscribed
  cases hlookup : r.clients.lookup c with
  | none => exact ⟨fun _ h => absurd h (by decide), fun _ h => by cases h⟩
  | some session =>
    constructor
    · intro h _
      have hreached := h rfl [] List.not_mem_nil List.not_mem_nil
      exact lt_of_indexed ((reached_iff _ c t).mp hreached)
    · intro hcap _ later hunsubscribe hunregister
      rw [reached_iff]
      apply indexed_runCalls hunsubscribe hunregister
      exact (indexed_insertIntoTopic _ c c t t).mpr (.inr ⟨rfl, rfl, hcap rfl⟩)

/-- Client 1024 registers and subscribes, both with `Ok`, and is on no dispatch of the topic. -/
theorem subscribe_ignored :
    let r := new.runCalls [.op (.register (.new 1024 .sbe 1000 10 0))]
    (r.subscribe 1024 (defaultTopic {})).1 = .ok () ∧
      ¬ r.SubscribeTakesEffect 1024 (defaultTopic {}) := by
  intro r
  have hok : (r.subscribe 1024 (defaultTopic {})).1 = .ok () := rfl
  refine ⟨hok, fun h => ?_⟩
  have hreached := h hok [] List.not_mem_nil List.not_mem_nil
  exact absurd (lt_of_indexed ((reached_iff _ _ _).mp hreached)) (by decide)

/-! ## Live topics -/

/-- Every entry of the table has a client, and the table has one entry for each topic with a
client. -/
structure TopicsLive (r : InvertedTopicRouter) : Prop where
  nonempty : ∀ t bitmap, r.topics.lookup t = some bitmap → bitmap.isEmpty = false
  count : r.topicCount = Set.ncard { t | ∃ c, r.Indexed t c }

lemma isEmpty_eq_false_iff (bitmap : ClientBitmap) :
    bitmap.isEmpty = false ↔ ∃ c, bitmap.contains c = true := by
  rw [← Bool.not_eq_true, ClientBitmap.isEmpty_iff, not_forall]
  constructor
  · rintro ⟨n, hn⟩
    rw [Bool.not_eq_false] at hn
    have hlt : n < 1024 := ClientBitmap.lt_of_bit hn
    refine ⟨UInt32.ofNat n, ?_⟩
    rw [ClientBitmap.contains_eq, UInt32.toNat_ofNat_of_lt' (by show n < 2 ^ 32; omega)]
    exact hn
  · rintro ⟨c, hc⟩
    rw [ClientBitmap.contains_eq] at hc
    exact ⟨c.toNat, by rw [hc]; decide⟩

/-- The second part follows from the first. -/
lemma TopicsLive.of_nonempty {r : InvertedTopicRouter}
    (h : ∀ t bitmap, r.topics.lookup t = some bitmap → bitmap.isEmpty = false) : r.TopicsLive := by
  refine ⟨h, ?_⟩
  have hset : { t | ∃ c, r.Indexed t c } = (r.topics.keys.toFinset : Set TopicKey) := by
    ext t
    rw [List.coe_toFinset]
    show (∃ c, r.Indexed t c) ↔ t ∈ r.topics.keys
    rw [← AList.mem_keys, ← AList.lookup_isSome]
    unfold Indexed
    cases hlookup : r.topics.lookup t with
    | none => simp [ClientBitmap.contains_eq, ClientBitmap.bit_new]
    | some bitmap =>
      rw [Option.getD_some, ← isEmpty_eq_false_iff]
      exact ⟨fun _ => rfl, fun _ => h t bitmap hlookup⟩
  rw [hset, Set.ncard_coe_finset, List.toFinset_card_of_nodup r.topics.keys_nodup]
  exact (List.length_map _).symm

/-- The call leaves no empty bitmap behind: a registered client that subscribes has a bit, or the
topic has an entry already; a client that unsubscribes is not alone on the topic. -/
def KeepsTopicsLive (r : InvertedTopicRouter) : Call → Prop
  | .op (.subscribe c t) =>
    (r.clients.lookup c).isSome → c.toNat < 1024 ∨ (r.topics.lookup t).isSome
  | .op (.unsubscribe c t) =>
    (r.topics.lookup t).isSome → ∃ c', c' ≠ c ∧ r.Indexed t c'
  | _ => True

lemma nonempty_removeFromTopics (r : InvertedTopicRouter) (c : UInt32) (t : TopicKey)
    (bitmap : ClientBitmap) (h : (r.removeFromTopics c).topics.lookup t = some bitmap) :
    bitmap.isEmpty = false := by
  have hretained : (r.removeFromTopics c).topics.lookup t
      = ((mapValues (fun bitmap => (bitmap.remove c).2) r.topics).lookup t).filter
          fun bitmap => !bitmap.isEmpty := lookup_retain _ _ t
  rw [hretained, Option.filter_eq_some_iff] at h
  simpa using h.2

/-- The bitmap a subscription leaves has a client, unless the topic is new and the client has no
bit. -/
lemma isEmpty_insert_iff {r : InvertedTopicRouter} (h : r.TopicsLive) (c : UInt32) (t : TopicKey) :
    (((r.topics.lookup t).getD .new).insert c).2.isEmpty = false ↔
      c.toNat < 1024 ∨ (r.topics.lookup t).isSome := by
  rw [isEmpty_eq_false_iff]
  constructor
  · rintro ⟨c', hc'⟩
    rw [ClientBitmap.contains_eq, ClientBitmap.bit_insert, Bool.or_eq_true,
      decide_eq_true_eq] at hc'
    rcases hc' with hc' | ⟨heq, hlt⟩
    · right
      cases hold : r.topics.lookup t with
      | none =>
        rw [hold, Option.getD_none, ClientBitmap.bit_new] at hc'
        cases hc'
      | some bitmap => rfl
    · left
      rw [← heq]
      exact hlt
  · rintro (hlt | hsome)
    · refine ⟨c, ?_⟩
      rw [ClientBitmap.contains_eq, ClientBitmap.bit_insert, Bool.or_eq_true, decide_eq_true_eq]
      exact .inr ⟨rfl, hlt⟩
    · -- the entry had a client before, and an insertion removes none
      obtain ⟨bitmap, hold⟩ := Option.isSome_iff_exists.mp hsome
      obtain ⟨c', hc'⟩ := (isEmpty_eq_false_iff bitmap).mp (h.nonempty t bitmap hold)
      refine ⟨c', ?_⟩
      rw [hold, Option.getD_some, ClientBitmap.contains_eq, ClientBitmap.bit_insert,
        Bool.or_eq_true, ← ClientBitmap.contains_eq]
      exact .inl hc'

/-- A subscription to a live table. -/
lemma topicsLive_insertIntoTopic_iff {r : InvertedTopicRouter} (h : r.TopicsLive) (c : UInt32)
    (t : TopicKey) :
    (r.insertIntoTopic c t).TopicsLive ↔ c.toNat < 1024 ∨ (r.topics.lookup t).isSome := by
  have hlookup : ∀ t', (r.insertIntoTopic c t).topics.lookup t'
      = if t' = t then some (((r.topics.lookup t).getD .new).insert c).2
        else r.topics.lookup t' := fun t' => lookup_insert_eq _ _ _ _
  rw [← isEmpty_insert_iff h]
  constructor
  · intro hlive
    refine hlive.nonempty t _ ?_
    rw [hlookup, if_pos rfl]
  · intro hnew
    apply TopicsLive.of_nonempty
    intro t' bitmap ht'
    rw [hlookup] at ht'
    split at ht'
    · cases ht'
      exact hnew
    · exact h.nonempty t' bitmap ht'

/-- An unsubscription from a live table. -/
lemma topicsLive_unsubscribe_iff {r : InvertedTopicRouter} (h : r.TopicsLive) (c : UInt32)
    (t : TopicKey) :
    (r.unsubscribe c t).2.TopicsLive ↔
      ((r.topics.lookup t).isSome → ∃ c', c' ≠ c ∧ r.Indexed t c') := by
  unfold unsubscribe
  cases hold : r.topics.lookup t with
  | none => exact iff_of_true h fun hsome => absurd hsome (by decide)
  | some bitmap =>
    -- the entry stays, with the clients other than this one
    have hentry : (bitmap.remove c).2.isEmpty = false ↔ ∃ c', c' ≠ c ∧ r.Indexed t c' := by
      rw [isEmpty_eq_false_iff]
      apply exists_congr
      intro c'
      rw [indexed_iff, hold, Option.getD_some, ClientBitmap.contains_eq, ClientBitmap.bit_remove,
        Bool.and_eq_true, decide_eq_true_eq, Ne, UInt32.toNat_inj, and_comm]
    rw [← hentry]
    constructor
    · intro hlive _
      refine hlive.nonempty t _ ?_
      rw [lookup_insert_eq, if_pos rfl]
    · intro hrest
      apply TopicsLive.of_nonempty
      intro t' bitmap' ht'
      rw [lookup_insert_eq] at ht'
      split at ht'
      · cases ht'
        exact hrest rfl
      · exact h.nonempty t' bitmap' ht'

lemma TopicsLive.congr {r r' : InvertedTopicRouter} (h : r.TopicsLive)
    (htopics : r'.topics = r.topics) : r'.TopicsLive := by
  apply TopicsLive.of_nonempty
  rw [htopics]
  exact h.nonempty

/-- One call on a live table. -/
lemma topicsLive_applyCall_iff {r : InvertedTopicRouter} (h : r.TopicsLive) (call : Call) :
    (r.applyCall call).TopicsLive ↔ r.KeepsTopicsLive call := by
  cases hcall : call.isIndexing with
  | false =>
    -- calls that leave the index alone
    have hlive := h.congr (topics_applyCall hcall r)
    cases call with
    | dispatchTrade trade matchesTrade nowMs => exact iff_of_true hlive trivial
    | op op => cases op <;> first | exact iff_of_true hlive trivial | cases hcall
  | true =>
    obtain ⟨c, rfl⟩ | ⟨c, t, rfl⟩ | ⟨c, t, rfl⟩ := Call.isIndexing_cases hcall
    · refine iff_of_true ?_ trivial
      show (r.unregisterClient c).2.TopicsLive
      unfold unregisterClient removeClient
      cases r.clients.lookup c with
      | none => exact h
      -- the removal drops every topic that it empties
      | some session => exact TopicsLive.of_nonempty (nonempty_removeFromTopics _ c)
    · show (r.subscribe c t).2.TopicsLive ↔
        ((r.clients.lookup c).isSome → c.toNat < 1024 ∨ (r.topics.lookup t).isSome)
      unfold subscribe markSubscribed
      cases r.clients.lookup c with
      | none => exact iff_of_true h fun hsome => absurd hsome (by decide)
      | some session =>
        have hlive : ({ r with
            clients := r.clients.insert c (session.setState .subscribed) } :
            InvertedTopicRouter).TopicsLive := h.congr rfl
        -- a topic made for an id out of range stays empty
        refine (topicsLive_insertIntoTopic_iff hlive c t).trans ?_
        exact ⟨fun hkeeps _ => hkeeps, fun hkeeps => hkeeps rfl⟩
    · exact topicsLive_unsubscribe_iff h c t

lemma topicsLive_new : new.TopicsLive := by
  apply TopicsLive.of_nonempty
  intro t bitmap h
  cases h

/-- The table is live in every state of a run on a fresh router, exactly when every call of the
run keeps it so. -/
theorem topics_live_iff (calls : List Call) :
    (∀ before after, calls = before ++ after → (new.runCalls before).TopicsLive) ↔
      ∀ before call after, calls = before ++ call :: after →
        (new.runCalls before).KeepsTopicsLive call := by
  have hstep : ∀ before call, new.runCalls (before ++ [call])
      = (new.runCalls before).applyCall call := fun before call => List.foldl_concat ..
  constructor
  · intro hlive before call after hcalls
    rw [← topicsLive_applyCall_iff (hlive before (call :: after) hcalls), ← hstep]
    apply hlive (before ++ [call]) after
    rw [hcalls, List.append_assoc, List.singleton_append]
  · intro hkeeps before
    -- from one state to the next, along the calls made so far
    induction before using List.reverseRecOn with
    | nil => exact fun _ _ => topicsLive_new
    | append_singleton before call ih =>
      intro after hcalls
      rw [List.append_assoc, List.singleton_append] at hcalls
      rw [hstep, topicsLive_applyCall_iff (ih (call :: after) hcalls)]
      exact hkeeps before call after hcalls

/-- A client registers, subscribes and unsubscribes: the topic stays in the table. -/
theorem dead_topic_stays :
    let r := new.runCalls
      [.op (.register (.new 1 .sbe 1000 10 0)), .op (.subscribe 1 (defaultTopic {})),
        .op (.unsubscribe 1 (defaultTopic {}))]
    r.topicCount = 1 ∧ ¬ r.TopicsLive := by
  intro r
  refine ⟨rfl, fun h => ?_⟩
  have hentry : ∃ bitmap, r.topics.lookup (defaultTopic {}) = some bitmap ∧ bitmap.isEmpty = true :=
    ⟨_, rfl, by decide⟩
  obtain ⟨bitmap, hlookup, hempty⟩ := hentry
  rw [h.nonempty _ bitmap hlookup] at hempty
  cases hempty

end InvertedTopicRouter
end ChainMarketPrice.Distribution
