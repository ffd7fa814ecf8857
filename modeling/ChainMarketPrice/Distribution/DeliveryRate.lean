import ChainMarketPrice.Distribution.DeliveryAccounting
import ChainMarketPrice.Distribution.TokenBucketTheorems

/-!
# The rate limit of a client over whole runs

Every delivery to a client was granted by the bucket of its session, whatever the other calls
of the run were. So the bound of the bucket is a bound on the frames a client is sent
(`deliveries_within_rate`), for the rates and capacities the bucket charges in full.
-/

namespace ChainMarketPrice.Distribution
namespace InvertedTopicRouter

open FiniteMap LockFreeTokenBucket

/-- The time a call dispatches at. -/
def Call.time? : Call → Option UInt64
  | .op (.dispatchBbo _ nowMs) | .dispatchTrade _ _ nowMs => some nowMs
  | .op (.register _) | .op (.unregister _) | .op (.subscribe _ _) | .op (.unsubscribe _ _)
  | .op (.updateFilter _ _) => none

/-- The times of the dispatches of a run. -/
def dispatchTimes (calls : List Call) : List UInt64 := calls.filterMap Call.time?

lemma time_of_dispatchOf {r : InvertedTopicRouter} {call : Call} {out : Outbound}
    {candidates : ClientBitmap} {nowMs : UInt64}
    (h : r.dispatchOf call = some (out, candidates, nowMs)) : call.time? = some nowMs := by
  cases call with
  | op op =>
    cases op with
    | dispatchBbo bbo nowMs => cases h; rfl
    | _ => cases h
  | dispatchTrade trade matchesTrade nowMs => cases h; rfl

/-- What a served session asks of its bucket: one token at most, and a delivery if it is granted. -/
lemma serve_requests {out : Outbound} {nowMs : UInt64} {clients : Map UInt32 ClientSession}
    {c : UInt32} {session : ClientSession} (hlookup : clients.lookup c = some session) :
    ∃ requests : List (UInt32 × UInt64), (requests.map Prod.snd).Sublist [nowMs] ∧
      (∀ calls, session.rateLimiter.granted (requests ++ calls)
        = (callFor out nowMs clients c).toList.length
          + (serve out nowMs session).rateLimiter.granted calls) := by
  by_cases hasks : session.isActive = true ∧ out.accepts session.filter = true
  · obtain ⟨hactive, hacc⟩ := hasks
    refine ⟨[(1, nowMs)], List.Sublist.refl _, fun calls => ?_⟩
    have htoken : (session.tryConsumeToken 1 nowMs).1
        = (session.rateLimiter.tryConsume 1 nowMs).1 := by
      simp [ClientSession.tryConsumeToken, apply_ite Prod.fst]
    rw [List.singleton_append, granted]
    by_cases hgranted : (session.rateLimiter.tryConsume 1 nowMs).1 = true
    · have hcall : callFor out nowMs clients c
          = some ⟨c, session.protocol, out.payload session.protocol⟩ :=
        callFor_eq_some_iff.mpr ⟨session, hlookup, hactive, ⟨hacc, htoken.trans hgranted⟩, rfl⟩
      have hserve : (serve out nowMs session).rateLimiter
          = (session.rateLimiter.tryConsume 1 nowMs).2 := by
        simp [serve, hactive, hacc, ClientSession.tryConsumeToken, hgranted,
          ClientSession.recordDelivery]
      simp [hcall, hserve, hgranted]
    · have hrefused : (session.rateLimiter.tryConsume 1 nowMs).1 = false := by simpa using hgranted
      have hcall : callFor out nowMs clients c = none := by
        simp [callFor, hlookup, Obtains, htoken, hrefused]
      have hserve : (serve out nowMs session).rateLimiter
          = (session.rateLimiter.tryConsume 1 nowMs).2 := by
        simp [serve, hactive, hacc, ClientSession.tryConsumeToken, hrefused]
      simp [hcall, hserve, hrefused]
  · -- inactive, or filtered: the bucket is not asked
    refine ⟨[], List.nil_sublist _, fun calls => ?_⟩
    have hcall : callFor out nowMs clients c = none := by
      by_contra hsome
      obtain ⟨call, hcall⟩ := Option.ne_none_iff_exists'.mp hsome
      obtain ⟨session', hlookup', hactive, hobtains, -⟩ := callFor_eq_some_iff.mp hcall
      rw [hlookup] at hlookup'
      cases hlookup'
      exact hasks ⟨hactive, hobtains.1⟩
    have hserve : serve out nowMs session = session := by
      rw [serve, if_pos]
      by_contra hboth
      simp only [Bool.or_eq_true, Bool.not_eq_true', not_or, Bool.not_eq_false] at hboth
      exact hasks hboth
    rw [hcall, hserve, List.nil_append, Option.toList_none, List.length_nil, Nat.zero_add]

/-- The deliveries of a run are the tokens a client's bucket grants, at times of the run. -/
lemma deliveries_granted {c : UInt32} {calls : List Call}
    (hstay : Call.op (.unregister c) ∉ calls) {r : InvertedTopicRouter} {session : ClientSession}
    (h : r.clients.lookup c = some session) :
    ∃ requests : List (UInt32 × UInt64),
      (requests.map Prod.snd).Sublist (dispatchTimes calls) ∧
      session.rateLimiter.granted requests = (deliveriesTo c (r.sinkCalls calls)).length := by
  induction calls generalizing r session with
  | nil => exact ⟨[], List.Sublist.refl _, rfl⟩
  | cons call calls ih =>
    rw [List.mem_cons, not_or] at hstay
    obtain ⟨session', hlookup', hstep⟩ := session_applyCall h (Ne.symm hstay.1)
    obtain ⟨requests, htimes, hgranted⟩ := ih hstay.2 hlookup'
    have hsink : deliveriesTo c (r.sinkCalls (call :: calls))
        = deliveriesTo c (r.callsOf call)
          ++ deliveriesTo c ((r.applyCall call).sinkCalls calls) :=
      deliveriesTo_append c _ _
    rw [hsink, List.length_append, ← hgranted]
    cases hstep with
    | served hdispatch hcalls _ =>
      obtain ⟨first, hfirst, hserve⟩ := serve_requests h
      refine ⟨first ++ requests, ?_, ?_⟩
      · rw [List.map_append, dispatchTimes, List.filterMap_cons, time_of_dispatchOf hdispatch]
        exact hfirst.append htimes
      · rw [hserve requests, hcalls]
    | kept hcalls _ hsame =>
      refine ⟨requests, htimes.trans ?_, ?_⟩
      · exact (List.sublist_cons_self call calls).filterMap _
      · rw [hcalls, List.length_nil, Nat.zero_add, hsame.2.2.2]

/-- The last request of a sublist of times is no later than the last time. -/
lemma endTime_le_of_sublist {t0 : UInt64} {requests : List (UInt32 × UInt64)} {times : List UInt64}
    (hsub : (requests.map Prod.snd).Sublist times) (hchain : List.IsChain (· ≤ ·) (t0 :: times)) :
    endTime t0 requests ≤ times.getLastD t0 := by
  have hpair : (t0 :: times).Pairwise (· ≤ ·) := List.isChain_iff_pairwise.mp hchain
  have hlast : ∀ t ∈ t0 :: times, t ≤ times.getLastD t0 := by
    intro t ht
    have hle := List.Pairwise.rel_getLast hpair ht
    rwa [List.getLast_eq_getLastD] at hle
  apply hlast
  rcases List.eq_nil_or_concat (requests.map Prod.snd) with hnil | ⟨front, last, hconcat⟩
  · rw [endTime, hnil]
    exact List.mem_cons_self
  · rw [endTime, hconcat, List.concat_eq_append, List.getLastD_concat]
    apply List.mem_cons_of_mem
    apply hsub.subset
    rw [hconcat, List.concat_eq_append]
    exact List.mem_append_right _ List.mem_cons_self

/-- From the connection of a client on, any run of calls that keeps it registered delivers to it
at most the burst capacity and the tokens of the time elapsed, for every rate and capacity
that the bucket charges in full. -/
theorem deliveries_within_rate {rate capacity : UInt32} (hrate : 1 ≤ rate.toNat)
    (hcap : capacity.toNat < 2 ^ 24) (hcharges : ChargesInFull rate.toNat capacity.toNat)
    {r : InvertedTopicRouter} {c : UInt32} {session : ClientSession} {t0 : UInt64}
    (hlookup : r.clients.lookup c = some session)
    (hbucket : session.rateLimiter = .new rate capacity t0) {calls : List Call}
    (hstay : Call.op (.unregister c) ∉ calls)
    (htimes : List.IsChain (· ≤ ·) (t0 :: dispatchTimes calls))
    (hend : ((dispatchTimes calls).getLastD t0).toNat < 2 ^ 40)
    (hfit : rate.toNat * (((dispatchTimes calls).getLastD t0).toNat - t0.toNat) / 1000 < 2 ^ 31) :
    (deliveriesTo c (r.sinkCalls calls)).length
      ≤ capacity.toNat
        + rate.toNat * (((dispatchTimes calls).getLastD t0).toNat - t0.toNat) / 1000 := by
  obtain ⟨requests, hsub, hgranted⟩ := deliveries_granted hstay hlookup
  have hlast := UInt64.le_iff_toNat_le.mp (endTime_le_of_sublist hsub htimes)
  have hchain : List.IsChain (· ≤ ·) (t0 :: requests.map Prod.snd) := by
    rw [List.isChain_iff_pairwise] at htimes ⊢
    exact htimes.sublist (hsub.cons_cons t0)
  have hstart := le_endTime hchain
  -- the packed word of a fresh bucket holds the connection time and the whole capacity
  have hms : lastMs (LockFreeTokenBucket.new rate capacity t0).state = t0.toNat :=
    (lastMs_new rate capacity t0).trans (Nat.mod_eq_of_lt (by omega))
  have hbalance : balance (LockFreeTokenBucket.new rate capacity t0).state = capacity.toNat :=
    (balance_new rate capacity t0).trans (Nat.mod_eq_of_lt hcap)
  have helapsed : rate.toNat * ((endTime t0 requests).toNat - t0.toNat)
      ≤ rate.toNat * (((dispatchTimes calls).getLastD t0).toNat - t0.toNat) :=
    Nat.mul_le_mul_left _ (by omega)
  have hbound := granted_le hrate hcap hcharges requests (LockFreeTokenBucket.new rate capacity t0) t0 rfl rfl
    hbalance.le hms.le hchain (by omega) (by rw [hms, Nat.mul_comm]; omega)
  rw [hms, hbalance, ← hbucket, hgranted] at hbound
  omega

/-- Two events within nine milliseconds, to a client with a burst of ten. -/
theorem deliveries_within_rate_burst :
    (deliveriesTo 3 ((run fanoutOps).sinkCalls
        [.op (.dispatchBbo {} 0), .op (.dispatchBbo {} 9)])).length ≤ 10 + 1000 * (9 - 0) / 1000 := by
  have hlookup : (run fanoutOps).clients.lookup 3
      = some ((ClientSession.new 3 .sbe 1000 10 0).setState .subscribed) := by decide
  have hbucket : ((ClientSession.new 3 .sbe 1000 10 0).setState .subscribed).rateLimiter
      = .new 1000 10 0 := rfl
  exact deliveries_within_rate (by decide) (by decide) (.inr (.inl (by decide))) hlookup hbucket
    (by simp) (by decide) (by decide) (by decide)

end InvertedTopicRouter
end ChainMarketPrice.Distribution
