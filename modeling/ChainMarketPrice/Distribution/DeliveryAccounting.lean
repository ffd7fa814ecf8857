import ChainMarketPrice.Distribution.Broadcast
import ChainMarketPrice.Distribution.RouterIndex

/-!
# What a run leaves in the sessions

A dispatch changes nothing of the router but the sessions of its candidates, and of each only
the bucket and the counters (`serve`). Over any run of calls the counters of a session are
the deliveries its client got: their number, their bytes and the refusals of its bucket
(`sessions_account_for_deliveries`).
-/

namespace ChainMarketPrice.Distribution
namespace InvertedTopicRouter

open FiniteMap WebSocket

/-! ## Runs -/

/-- The dispatch a call makes, if it is one: the event, its candidates and the time. -/
def dispatchOf (r : InvertedTopicRouter) : Call → Option (Outbound × ClientBitmap × UInt64)
  | .op (.dispatchBbo bbo nowMs) => some (bboOutbound bbo, r.bboCandidates bbo, nowMs)
  | .dispatchTrade trade matchesTrade nowMs =>
    some (tradeOutbound trade matchesTrade, r.tradeCandidates trade, nowMs)
  | .op (.register _) | .op (.unregister _) | .op (.subscribe _ _) | .op (.unsubscribe _ _)
  | .op (.updateFilter _ _) => none

lemma dispatchOf_whole {r : InvertedTopicRouter} {call : Call} {out : Outbound}
    {candidates : ClientBitmap} {nowMs : UInt64}
    (h : r.dispatchOf call = some (out, candidates, nowMs)) : out.Whole := by
  cases call with
  | op op =>
    cases op with
    | dispatchBbo bbo nowMs => cases h; exact whole_bbo bbo
    | _ => cases h
  | dispatchTrade trade matchesTrade nowMs => cases h; exact whole_trade trade matchesTrade

lemma applyCall_of_dispatchOf {r : InvertedTopicRouter} {call : Call} {out : Outbound}
    {candidates : ClientBitmap} {nowMs : UInt64}
    (h : r.dispatchOf call = some (out, candidates, nowMs)) :
    r.applyCall call = (r.dispatch out candidates nowMs).1 := by
  cases call with
  | op op =>
    cases op with
    | dispatchBbo bbo nowMs => cases h; rfl
    | _ => cases h
  | dispatchTrade trade matchesTrade nowMs => cases h; rfl

/-- The metrics a call returns; none but those of a dispatch count anything. -/
def metricsOf (r : InvertedTopicRouter) (call : Call) : DispatchMetrics :=
  match r.dispatchOf call with
  | some (out, candidates, nowMs) => (r.dispatch out candidates nowMs).2.1
  | none => {}

/-- The calls of the sink a call makes. -/
def callsOf (r : InvertedTopicRouter) (call : Call) : List SinkCall :=
  match r.dispatchOf call with
  | some (out, candidates, nowMs) => (r.dispatch out candidates nowMs).2.2
  | none => []

/-- The clients whose bucket refuses a token in a call. -/
def refusedOf (r : InvertedTopicRouter) (call : Call) : List UInt32 :=
  match r.dispatchOf call with
  | some (out, candidates, nowMs) => candidates.ids.filter (refuses out nowMs r.clients)
  | none => []

/-- What a function of the router and the call gives over a run, one call after the other. -/
def overRun {α : Type*} (f : InvertedTopicRouter → Call → List α) :
    InvertedTopicRouter → List Call → List α
  | _, [] => []
  | r, call :: calls => f r call ++ overRun f (r.applyCall call) calls

/-- All calls of the sink in a run. -/
def sinkCalls : InvertedTopicRouter → List Call → List SinkCall := overRun callsOf

/-- The clients refused in a run, once for each refusal. -/
def refusals : InvertedTopicRouter → List Call → List UInt32 := overRun refusedOf

/-- A counter of the metrics, added up over a run. -/
def totalOf (counter : DispatchMetrics → ℕ) (r : InvertedTopicRouter) (calls : List Call) : ℕ :=
  (overRun (fun r call => [counter (r.metricsOf call)]) r calls).sum

/-- The deliveries to one client. -/
def deliveriesTo (c : UInt32) (calls : List SinkCall) : List SinkCall :=
  calls.filter (·.clientId = c)

/-- The counters of a session have grown by the deliveries and the refusals given. -/
structure Counts (session session' : ClientSession) (got : List SinkCall) (refused : ℕ) : Prop where
  messages : session'.messagesSent = session.messagesSent + UInt64.ofNat got.length
  bytes : session'.bytesSent = session.bytesSent + UInt64.ofNat (payloadBytes got)
  dropped : session'.droppedRateLimit = session.droppedRateLimit + UInt64.ofNat refused

lemma Counts.refl (session : ClientSession) : Counts session session [] 0 :=
  ⟨(UInt64.add_zero _).symm, (UInt64.add_zero _).symm, (UInt64.add_zero _).symm⟩

lemma Counts.trans {s s' s'' : ClientSession} {got got' : List SinkCall} {n n' : ℕ}
    (h : Counts s s' got n) (h' : Counts s' s'' got' n') :
    Counts s s'' (got ++ got') (n + n') where
  messages := by rw [h'.messages, h.messages, List.length_append, UInt64.ofNat_add, UInt64.add_assoc]
  bytes := by rw [h'.bytes, h.bytes, payloadBytes_append, UInt64.ofNat_add, UInt64.add_assoc]
  dropped := by rw [h'.dropped, h.dropped, UInt64.ofNat_add, UInt64.add_assoc]

/-- The counters and the bucket of a session are those of another. -/
def SameAccount (s s' : ClientSession) : Prop :=
  s'.messagesSent = s.messagesSent ∧ s'.bytesSent = s.bytesSent ∧
    s'.droppedRateLimit = s.droppedRateLimit ∧ s'.rateLimiter = s.rateLimiter

lemma Counts.of_same {s s' : ClientSession} (h : SameAccount s s') : Counts s s' [] 0 where
  messages := by rw [h.1]; exact (UInt64.add_zero _).symm
  bytes := by rw [h.2.1]; exact (UInt64.add_zero _).symm
  dropped := by rw [h.2.2.1]; exact (UInt64.add_zero _).symm

/-- The counters of a candidate after it is served. -/
lemma counts_serve {out : Outbound} {nowMs : UInt64} {clients : Map UInt32 ClientSession}
    {c : UInt32} {session : ClientSession} (hlookup : clients.lookup c = some session) :
    Counts session (serve out nowMs session) (callFor out nowMs clients c).toList
      ([c].countP (refuses out nowMs clients)) := by
  have hrefuses : refuses out nowMs clients c = decide (Denied out nowMs session) := by
    rw [refuses, hlookup]
  by_cases hactive : session.isActive = true
  · by_cases hacc : out.accepts session.filter = true
    · by_cases htok : (session.tryConsumeToken 1 nowMs).1 = true
      · have hcall : callFor out nowMs clients c
            = some ⟨c, session.protocol, out.payload session.protocol⟩ :=
          callFor_eq_some_iff.mpr ⟨session, hlookup, hactive, ⟨hacc, htok⟩, rfl⟩
        have hserve : serve out nowMs session = (session.tryConsumeToken 1 nowMs).2.recordDelivery
            (out.payload session.protocol).length := by
          simp [serve, hactive, hacc, htok]
        have hbucket : (session.rateLimiter.tryConsume 1 nowMs).1 = true := by
          simpa [ClientSession.tryConsumeToken, apply_ite Prod.fst] using htok
        rw [hcall, hserve]
        constructor
        · simp [ClientSession.recordDelivery, ClientSession.tryConsumeToken, hbucket]
        · simp [ClientSession.recordDelivery, ClientSession.tryConsumeToken, hbucket, payloadBytes]
        · simp [ClientSession.recordDelivery, ClientSession.tryConsumeToken, hbucket, hrefuses,
            Denied]
      · have hrefused : (session.tryConsumeToken 1 nowMs).1 = false := by simpa using htok
        have hcall : callFor out nowMs clients c = none := by
          simp [callFor, hlookup, hactive, Obtains, hrefused]
        have hserve : serve out nowMs session = (session.tryConsumeToken 1 nowMs).2 := by
          simp [serve, hactive, hacc, hrefused]
        have hbucket : (session.rateLimiter.tryConsume 1 nowMs).1 = false := by
          simpa [ClientSession.tryConsumeToken, apply_ite Prod.fst] using hrefused
        rw [hcall, hserve]
        constructor
        · simp [ClientSession.tryConsumeToken, hbucket]
        · simp [ClientSession.tryConsumeToken, hbucket, payloadBytes]
        · simp [ClientSession.tryConsumeToken, hbucket, hrefuses, Denied, hactive, hacc]
    · have hacc' : out.accepts session.filter = false := by simpa using hacc
      have hcall : callFor out nowMs clients c = none := by
        simp [callFor, hlookup, hactive, Obtains, hacc']
      have hno : [c].countP (refuses out nowMs clients) = 0 := by simp [hrefuses, Denied, hacc']
      rw [hcall, hno, show serve out nowMs session = session by simp [serve, hacc']]
      exact .refl session
  · have hactive' : session.isActive = false := by simpa using hactive
    have hcall : callFor out nowMs clients c = none := by simp [callFor, hlookup, hactive']
    have hno : [c].countP (refuses out nowMs clients) = 0 := by simp [hrefuses, Denied, hactive']
    rw [hcall, hno, show serve out nowMs session = session by simp [serve, hactive']]
    exact .refl session

lemma deliveriesTo_append (c : UInt32) (calls calls' : List SinkCall) :
    deliveriesTo c (calls ++ calls') = deliveriesTo c calls ++ deliveriesTo c calls' :=
  List.filter_append calls calls'

/-- Of the calls for distinct candidates, those for one client are its own. -/
lemma deliveriesTo_candidates (out : Outbound) (nowMs : UInt64) (clients : Map UInt32 ClientSession)
    (c : UInt32) {ids : List UInt32} (hnodup : ids.Nodup) :
    deliveriesTo c (ids.filterMap (callFor out nowMs clients))
      = if c ∈ ids then (callFor out nowMs clients c).toList else [] := by
  have hid : ∀ c' call, callFor out nowMs clients c' = some call → call.clientId = c' := by
    intro c' call hcall
    obtain ⟨-, -, -, -, rfl⟩ := callFor_eq_some_iff.mp hcall
    rfl
  induction ids with
  | nil => rfl
  | cons c' ids ih =>
    obtain ⟨hc', hnodup'⟩ := List.nodup_cons.mp hnodup
    have hcons : (c' :: ids).filterMap (callFor out nowMs clients)
        = (callFor out nowMs clients c').toList ++ ids.filterMap (callFor out nowMs clients) := by
      rw [List.filterMap_cons]
      cases callFor out nowMs clients c' <;> rfl
    rw [hcons, deliveriesTo_append, ih hnodup']
    by_cases heq : c = c'
    · subst heq
      have hself : deliveriesTo c (callFor out nowMs clients c).toList
          = (callFor out nowMs clients c).toList := by
        apply List.filter_eq_self.mpr
        intro call hcall
        exact decide_eq_true (hid c call (Option.mem_toList.mp hcall))
      rw [hself, if_neg hc', if_pos List.mem_cons_self, List.append_nil]
    · have hnone : deliveriesTo c (callFor out nowMs clients c').toList = [] := by
        apply List.filter_eq_nil_iff.mpr
        intro call hcall
        rw [hid c' call (Option.mem_toList.mp hcall), decide_eq_true_eq]
        exact Ne.symm heq
      rw [hnone, List.nil_append]
      simp [heq]

lemma count_refused (p : UInt32 → Bool) (c : UInt32) {ids : List UInt32} (hnodup : ids.Nodup) :
    (ids.filter p).count c = if c ∈ ids then [c].countP p else 0 := by
  by_cases hp : p c = true
  · rw [List.count_filter hp]
    split
    · rename_i hmem
      simp [List.count_eq_one_of_mem hnodup hmem, hp]
    · rename_i hmem
      exact List.count_eq_zero_of_not_mem hmem
  · have hnot : c ∉ ids.filter p := fun hmem => hp (List.mem_filter.mp hmem).2
    rw [List.count_eq_zero_of_not_mem hnot]
    simp [hp]

/-- What a call makes of the session of a client: it is a candidate and served, or its
account is left alone. -/
inductive SessionStep (r : InvertedTopicRouter) (c : UInt32) (call : Call)
    (session : ClientSession) : ClientSession → Prop
  | served {out : Outbound} {candidates : ClientBitmap} {nowMs : UInt64}
      (dispatch : r.dispatchOf call = some (out, candidates, nowMs))
      (calls : deliveriesTo c (r.callsOf call) = (callFor out nowMs r.clients c).toList)
      (refused : (r.refusedOf call).count c = [c].countP (refuses out nowMs r.clients)) :
      SessionStep r c call session (serve out nowMs session)
  | kept {session' : ClientSession} (calls : deliveriesTo c (r.callsOf call) = [])
      (refused : (r.refusedOf call).count c = 0) (same : SameAccount session session') :
      SessionStep r c call session session'

lemma session_applyCall {r : InvertedTopicRouter} {c : UInt32} {session : ClientSession}
    (h : r.clients.lookup c = some session) {call : Call} (hcall : call ≠ .op (.unregister c)) :
    ∃ session', (r.applyCall call).clients.lookup c = some session' ∧
      SessionStep r c call session session' := by
  cases hdispatch : r.dispatchOf call with
  | some d =>
    obtain ⟨out, candidates, nowMs⟩ := d
    have hacc := accounts_dispatch r (dispatchOf_whole hdispatch) candidates nowMs
    have hcalls : deliveriesTo c (r.callsOf call)
        = if c ∈ candidates.ids then (callFor out nowMs r.clients c).toList else [] := by
      rw [callsOf, hdispatch]
      dsimp only
      rw [hacc.calls, deliveriesTo_candidates out nowMs r.clients c candidates.nodup_ids]
    have hrefused : (r.refusedOf call).count c
        = if c ∈ candidates.ids then [c].countP (refuses out nowMs r.clients) else 0 := by
      rw [refusedOf, hdispatch]
      exact count_refused _ c candidates.nodup_ids
    rw [applyCall_of_dispatchOf hdispatch, hacc.clients, h]
    by_cases hmem : c ∈ candidates.ids
    · rw [if_pos hmem] at hcalls hrefused ⊢
      exact ⟨serve out nowMs session, rfl, .served hdispatch hcalls hrefused⟩
    · rw [if_neg hmem] at hcalls hrefused ⊢
      exact ⟨session, rfl, .kept hcalls hrefused ⟨rfl, rfl, rfl, rfl⟩⟩
  | none =>
    have hcalls : deliveriesTo c (r.callsOf call) = [] := by
      rw [callsOf, hdispatch]
      rfl
    have hrefused : (r.refusedOf call).count c = 0 := by
      rw [refusedOf, hdispatch]
      rfl
    have hkept : ∀ session', SameAccount session session' → SessionStep r c call session session' :=
      fun _ hsame => .kept hcalls hrefused hsame
    have hsame : SameAccount session session := ⟨rfl, rfl, rfl, rfl⟩
    cases call with
    | dispatchTrade trade matchesTrade nowMs => cases hdispatch
    | op op =>
      cases op with
      | dispatchBbo bbo nowMs => cases hdispatch
      | register session0 =>
        -- a registration under the id of a registered client is refused
        refine ⟨session, ?_, hkept _ hsame⟩
        show (r.registerClient session0).2.clients.lookup c = some session
        unfold registerClient
        dsimp only
        cases hlookup : r.clients.lookup session0.id with
        | some _ => exact h
        | none =>
          have hne : c ≠ session0.id := by
            rintro rfl
            rw [h] at hlookup
            cases hlookup
          exact (AList.lookup_insert_ne hne).trans h
      | unregister c' =>
        refine ⟨session, ?_, hkept _ hsame⟩
        have hne : c ≠ c' := by
          rintro rfl
          exact hcall rfl
        show (r.unregisterClient c').2.clients.lookup c = some session
        unfold unregisterClient removeClient
        cases r.clients.lookup c' with
        | none => exact h
        | some _ => exact (AList.lookup_erase_ne hne).trans h
      | subscribe c' t =>
        show ∃ session', (r.subscribe c' t).2.clients.lookup c = some session' ∧ _
        unfold subscribe markSubscribed
        cases hlookup : r.clients.lookup c' with
        | none => exact ⟨session, h, hkept _ hsame⟩
        | some session0 =>
          dsimp only [insertIntoTopic]
          rw [lookup_insert_eq]
          by_cases heq : c = c'
          · subst heq
            rw [h] at hlookup
            cases hlookup
            exact ⟨_, if_pos rfl, hkept _ ⟨rfl, rfl, rfl, rfl⟩⟩
          · exact ⟨session, (if_neg heq).trans h, hkept _ hsame⟩
      | unsubscribe c' t =>
        refine ⟨session, ?_, hkept _ hsame⟩
        show (r.unsubscribe c' t).2.clients.lookup c = some session
        unfold unsubscribe
        cases r.topics.lookup t <;> exact h
      | updateFilter c' filter =>
        show ∃ session', (r.updateFilter c' filter).2.clients.lookup c = some session' ∧ _
        unfold updateFilter
        cases hlookup : r.clients.lookup c' with
        | none => exact ⟨session, h, hkept _ hsame⟩
        | some session0 =>
          dsimp only
          rw [lookup_insert_eq]
          by_cases heq : c = c'
          · subst heq
            rw [h] at hlookup
            cases hlookup
            exact ⟨_, if_pos rfl, hkept _ ⟨rfl, rfl, rfl, rfl⟩⟩
          · exact ⟨session, (if_neg heq).trans h, hkept _ hsame⟩

lemma SessionStep.counts {r : InvertedTopicRouter} {c : UInt32} {call : Call}
    {session session' : ClientSession} (h : SessionStep r c call session session')
    (hlookup : r.clients.lookup c = some session) :
    Counts session session' (deliveriesTo c (r.callsOf call)) ((r.refusedOf call).count c) := by
  cases h with
  | served hdispatch hcalls hrefused =>
    rw [hcalls, hrefused]
    exact counts_serve hlookup
  | kept hcalls hrefused hsame =>
    rw [hcalls, hrefused]
    exact .of_same hsame

lemma counts_run {c : UInt32} {calls : List Call} (hstay : Call.op (.unregister c) ∉ calls)
    {r : InvertedTopicRouter} {session : ClientSession} (h : r.clients.lookup c = some session) :
    ∃ session', (r.runCalls calls).clients.lookup c = some session' ∧
      Counts session session' (deliveriesTo c (r.sinkCalls calls)) ((r.refusals calls).count c) := by
  induction calls generalizing r session with
  | nil => exact ⟨session, h, .refl session⟩
  | cons call calls ih =>
    rw [List.mem_cons, not_or] at hstay
    obtain ⟨session', hlookup', hstep⟩ := session_applyCall h (Ne.symm hstay.1)
    obtain ⟨session'', hlookup'', hcounts'⟩ := ih hstay.2 hlookup'
    refine ⟨session'', hlookup'', ?_⟩
    have hsum := (hstep.counts h).trans hcounts'
    rw [← deliveriesTo_append, ← List.count_append] at hsum
    exact hsum

/-- The metrics of one call. -/
lemma metrics_applyCall (r : InvertedTopicRouter) (call : Call) :
    (r.metricsOf call).deliveredClients = (r.callsOf call).length ∧
      DispatchMetrics.bytes (r.metricsOf call) = payloadBytes (r.callsOf call) ∧
      (r.metricsOf call).rateLimitedClients = (r.refusedOf call).length := by
  unfold metricsOf callsOf refusedOf
  cases hdispatch : r.dispatchOf call with
  | none => exact ⟨rfl, rfl, rfl⟩
  | some d =>
    obtain ⟨out, candidates, nowMs⟩ := d
    have hacc := accounts_dispatch r (dispatchOf_whole hdispatch) candidates nowMs
    exact ⟨hacc.delivered, hacc.bytes, hacc.denied.trans List.countP_eq_length_filter⟩

lemma totals_run (calls : List Call) (r : InvertedTopicRouter) :
    totalOf (·.deliveredClients) r calls = (r.sinkCalls calls).length ∧
      totalOf DispatchMetrics.bytes r calls = payloadBytes (r.sinkCalls calls) ∧
      totalOf (·.rateLimitedClients) r calls = (r.refusals calls).length := by
  induction calls generalizing r with
  | nil => exact ⟨rfl, rfl, rfl⟩
  | cons call calls ih =>
    obtain ⟨hdelivered, hbytes, hlimited⟩ := metrics_applyCall r call
    obtain ⟨hdelivered', hbytes', hlimited'⟩ := ih (r.applyCall call)
    have htotal : ∀ counter : DispatchMetrics → ℕ, totalOf counter r (call :: calls)
        = counter (r.metricsOf call) + totalOf counter (r.applyCall call) calls :=
      fun counter => List.sum_cons
    have hcalls : r.sinkCalls (call :: calls)
        = r.callsOf call ++ (r.applyCall call).sinkCalls calls := rfl
    have hrefusals : r.refusals (call :: calls)
        = r.refusedOf call ++ (r.applyCall call).refusals calls := rfl
    rw [htotal, htotal, htotal, hcalls, hrefusals, payloadBytes_append, List.length_append,
      List.length_append, hdelivered, hbytes, hlimited, hdelivered', hbytes', hlimited']
    exact ⟨rfl, rfl, rfl⟩

/-- Over any run that does not unregister a client, the counters of its session grow by exactly
the deliveries it got, their bytes and the tokens its bucket refused; and the metrics of the
run add up to the deliveries, the bytes and the refusals of all clients. -/
theorem sessions_account_for_deliveries (r : InvertedTopicRouter) (calls : List Call) :
    (∀ c session, r.clients.lookup c = some session → Call.op (.unregister c) ∉ calls →
      ∃ session', (r.runCalls calls).clients.lookup c = some session' ∧
        Counts session session' (deliveriesTo c (r.sinkCalls calls))
          ((r.refusals calls).count c)) ∧
      totalOf (·.deliveredClients) r calls = (r.sinkCalls calls).length ∧
      totalOf DispatchMetrics.bytes r calls = payloadBytes (r.sinkCalls calls) ∧
      totalOf (·.rateLimitedClients) r calls = (r.refusals calls).length :=
  ⟨fun _ _ h hstay => counts_run hstay h, totals_run calls r⟩

end InvertedTopicRouter
end ChainMarketPrice.Distribution
