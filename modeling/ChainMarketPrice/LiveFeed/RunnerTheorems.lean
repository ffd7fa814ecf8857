import ChainMarketPrice.Distribution.SbeTheorems
import ChainMarketPrice.LiveFeed.RunnerSession
import ChainMarketPrice.LiveFeed.TradeOrder

/-!
# Waiting and delivering

How long the live feed waits between two connections (`retries_back_off`), and what its sink
holds after a run (`live_feed_delivers`).
-/

namespace ChainMarketPrice.LiveFeed
namespace Runner

open CoreEngine ChainMarketPrice.Distribution

/-! ## Waiting -/

/-- The loop goes on only after a connection that has ended, and within the deadline. -/
lemma next_sleep {args : Args} {nowNs : ℕ} {c : Connection} {result : Option (Except Unit Outcome)}
    {backoff delay : ℕ} (h : (Main.next args nowNs c result backoff).1.sleep = some delay) :
    delay = backoff ∧
      (Main.next args nowNs c result backoff).2.backoff = Backoff.double maxBackoff delay ∧
      result ≠ none ∧ result ≠ some (.ok .finished) ∧
      ∀ deadline, args.deadline = some deadline → nowNs + delay < deadline := by
  have hgoes : ∀ r : Except Unit Outcome, r ≠ .ok .finished →
      Main.next args nowNs c (some r) backoff
        = if args.deadline.any fun deadline => nowNs + backoff ≥ deadline then
            (⟨c, some r, none⟩, { session := c.session, sink := c.sink, backoff := backoff })
          else
            (⟨c, some r, some backoff⟩,
              { session := c.session, sink := c.sink,
                backoff := Backoff.double maxBackoff backoff }) := by
    intro r hr
    unfold Main.next
    split
    · cases ‹some r = none›
    · exact absurd (Option.some.inj ‹some r = some (.ok .finished)›) hr
    · rfl
  cases result with
  | none => cases h
  | some r =>
    by_cases hr : r = .ok .finished
    · rw [hr] at h
      cases h
    · rw [hgoes r hr] at h ⊢
      by_cases hover : args.deadline.any fun deadline => nowNs + backoff ≥ deadline
      · rw [if_pos hover] at h
        cases h
      · rw [if_neg hover] at h ⊢
        have hdelay : backoff = delay := Option.some.inj h
        refine ⟨hdelay.symm, by rw [hdelay], by simp, by simp [hr], ?_⟩
        intro deadline hdeadline
        rw [hdeadline] at hover
        simp at hover
        omega

lemma attempt_sleep {args : Args} {m : Main} {a : Attempt} {delay : ℕ}
    (h : (m.attempt args a).1.sleep = some delay) :
    delay = (if (m.attempt args a).1.connection.gotMessage then second else m.backoff) ∧
      (m.attempt args a).2.backoff = Backoff.double maxBackoff delay ∧
      (m.attempt args a).1.result ≠ none ∧
      (m.attempt args a).1.result ≠ some (.ok .finished) ∧
      ∀ deadline, args.deadline = some deadline → a.nowNs + delay < deadline := by
  obtain ⟨hconnection, hresult, -, -⟩ := attempt_eq args m a
  rw [hconnection, hresult]
  exact next_sleep h

/-- The connections that heard nothing, up to the one of this number and right before it. -/
def silent (heard : List Bool) (i : ℕ) : ℕ :=
  ((heard.take (i + 1)).reverse.takeWhile (!·)).length

lemma silent_zero (h : Bool) (heard : List Bool) :
    silent (h :: heard) 0 = if h then 0 else 1 := by
  cases h with
  | true => simp [silent]
  | false => simp [silent]

/-- One more connection in front is counted only if all the later ones are. -/
lemma silent_succ (h : Bool) {heard : List Bool} {i : ℕ} (hi : i < heard.length) :
    silent (h :: heard) (i + 1)
      = if silent heard i = i + 1 then (if h then i + 1 else i + 2) else silent heard i := by
  have hlength : ((heard.take (i + 1)).reverse).length = i + 1 := by
    rw [List.length_reverse, List.length_take]
    omega
  rw [silent, List.take_succ_cons, List.reverse_cons, List.takeWhile_append, hlength]
  show (if silent heard i = i + 1 then _ else _ : List Bool).length = _
  by_cases hall : silent heard i = i + 1
  · rw [if_pos hall, if_pos hall, List.length_append, hlength]
    cases h with
    | true => simp
    | false => simp
  · rw [if_neg hall, if_neg hall]
    rfl

lemma silent_le (heard : List Bool) (i : ℕ) : silent heard i ≤ i + 1 := by
  have hle : silent heard i ≤ (heard.take (i + 1)).reverse.length :=
    (List.takeWhile_sublist _).length_le
  rw [List.length_reverse, List.length_take] at hle
  exact hle.trans (Nat.min_le_left _ _)

/-- Whether each connection got a message. -/
def gotMessages (visits : List Visit) : List Bool := visits.map (·.connection.gotMessage)

/-- The flag of a connection says whether it handled a text. -/
lemma Drives.gotMessages_eq {args : Args} {before after : List SessionOp}
    {attempts : List Attempt} {visits : List Visit} {turns : List (List Turn)}
    (h : Drives args before attempts visits turns after) :
    gotMessages visits = turns.map heard := by
  unfold gotMessages
  induction h with
  | nil ops => rfl
  | stop attempts reached served stops =>
    rw [List.map_singleton, List.map_singleton, served.gotMessage]
  | next reached served sleeps rest ih =>
    rw [List.map_cons, List.map_cons, served.gotMessage, ih]

/-- Doubling once more. -/
lemma double_pow (n : ℕ) :
    Backoff.double maxBackoff (min (2 ^ n * second) maxBackoff)
      = min (2 ^ (n + 1) * second) maxBackoff := by
  have hpow : 2 ^ (n + 1) * second = 2 * (2 ^ n * second) := by ring
  rw [Backoff.double, hpow]
  omega

lemma run_stop {args : Args} {m : Main} {a : Attempt}
    (h : (m.attempt args a).1.sleep = none) (attempts : List Attempt) :
    m.run args (a :: attempts) = ([(m.attempt args a).1], (m.attempt args a).2) := by
  conv_lhs => unfold Main.run
  dsimp only
  rw [h]

lemma run_next {args : Args} {m : Main} {a : Attempt} {delay : ℕ}
    (h : (m.attempt args a).1.sleep = some delay) (attempts : List Attempt) :
    m.run args (a :: attempts)
      = ((m.attempt args a).1 :: ((m.attempt args a).2.run args attempts).1,
          ((m.attempt args a).2.run args attempts).2) := by
  conv_lhs => unfold Main.run
  dsimp only
  rw [h]

/-- The loop ends with the first connection after which it does not sleep. -/
lemma stop_last (args : Args) (m : Main) (attempts : List Attempt) :
    ∀ i visit, (m.run args attempts).1[i]? = some visit → visit.sleep = none →
      i + 1 = (m.run args attempts).1.length := by
  induction attempts generalizing m with
  | nil =>
    intro i visit hvisit
    cases hvisit
  | cons a attempts ih =>
    intro i visit hvisit hsleep
    cases hfirst : (m.attempt args a).1.sleep with
    | none =>
      rw [run_stop hfirst] at hvisit ⊢
      cases i with
      | zero => rfl
      | succ i => cases hvisit
    | some delay =>
      rw [run_next hfirst] at hvisit ⊢
      cases i with
      | zero =>
        rw [List.getElem?_cons_zero, Option.some.injEq] at hvisit
        rw [hvisit, hsleep] at hfirst
        cases hfirst
      | succ i =>
        rw [List.getElem?_cons_succ] at hvisit
        rw [List.length_cons, ← ih _ i visit hvisit hsleep]

/-- The delays of a run that begins with the delay after so many doublings. -/
lemma sleep_run {args : Args} {attempts : List Attempt} {m : Main} {n : ℕ}
    (hbackoff : m.backoff = min (2 ^ n * second) maxBackoff) {i : ℕ} {visit : Visit} {a : Attempt}
    {delay : ℕ} (hvisit : (m.run args attempts).1[i]? = some visit)
    (hattempt : attempts[i]? = some a) (hsleep : visit.sleep = some delay) :
    delay = min (2 ^ (if silent (gotMessages (m.run args attempts).1) i = i + 1 then n + i
        else silent (gotMessages (m.run args attempts).1) i) * second) maxBackoff ∧
      visit.result ≠ none ∧ visit.result ≠ some (.ok .finished) ∧
      ∀ deadline, args.deadline = some deadline → a.nowNs + delay < deadline := by
  induction attempts generalizing m n i with
  | nil => cases hvisit
  | cons a₀ attempts ih =>
    cases hfirst : (m.attempt args a₀).1.sleep with
    | none =>
      rw [run_stop hfirst] at hvisit
      cases i with
      | zero =>
        rw [List.getElem?_cons_zero, Option.some.injEq] at hvisit
        rw [← hvisit, hfirst] at hsleep
        cases hsleep
      | succ i => cases hvisit
    | some first =>
      obtain ⟨hdelay, hnext, hended, hlast, hdeadline⟩ := attempt_sleep hfirst
      -- the delay of the first connection
      have hpow : first = min (2 ^ (if (m.attempt args a₀).1.connection.gotMessage then 0 else n)
          * second) maxBackoff := by
        rw [hdelay]
        split
        · rfl
        · exact hbackoff
      rw [run_next hfirst] at hvisit ⊢
      cases i with
      | zero =>
        rw [List.getElem?_cons_zero, Option.some.injEq] at hvisit hattempt
        subst hvisit hattempt
        rw [hfirst, Option.some.injEq] at hsleep
        subst hsleep
        refine ⟨?_, hended, hlast, hdeadline⟩
        rw [hpow, gotMessages, List.map_cons, silent_zero]
        cases (m.attempt args a₀).1.connection.gotMessage with
        | true => simp
        | false => simp
      | succ i =>
        rw [List.getElem?_cons_succ] at hvisit hattempt
        have hbackoff' := hnext.trans (congrArg (Backoff.double maxBackoff) hpow)
        rw [double_pow] at hbackoff'
        obtain ⟨hdelay', hrest⟩ := ih hbackoff' hvisit hattempt
        refine ⟨?_, hrest⟩
        have hi : i < (gotMessages ((m.attempt args a₀).2.run args attempts).1).length := by
          rw [gotMessages, List.length_map]
          exact (List.getElem?_eq_some_iff.mp hvisit).1
        have hle := silent_le (gotMessages ((m.attempt args a₀).2.run args attempts).1) i
        have hcons : gotMessages ((m.attempt args a₀).1
              :: ((m.attempt args a₀).2.run args attempts).1)
            = (m.attempt args a₀).1.connection.gotMessage
              :: gotMessages ((m.attempt args a₀).2.run args attempts).1 := rfl
        rw [hdelay', hcons, silent_succ _ hi]
        congr 3
        -- the exponent, by whether all the later connections were silent
        by_cases hall : silent (gotMessages ((m.attempt args a₀).2.run args attempts).1) i = i + 1
        · rw [if_pos hall, if_pos hall]
          cases (m.attempt args a₀).1.connection.gotMessage with
          | true => simp; omega
          | false => simp; omega
        · rw [if_neg hall, if_neg hall, if_neg (by omega)]

/-- Every delay between two connections of a run is a second, doubled for each connection that
handled no text since the last one that did (or since the second connection), up to half a
minute. It follows a connection that has ended, and is over before the deadline; after the last
connection there is none, unless the network has nothing more to do. -/
theorem retries_back_off (args : Args) (attempts : List Attempt) :
    let visits := ((Main.new args).run args attempts).1
    ∃ turns ops, Drives args [] attempts visits turns ops ∧
      (∀ i visit a delay, visits[i]? = some visit → attempts[i]? = some a →
        visit.sleep = some delay →
          delay = min (2 ^ min (silent (turns.map heard) i) i * second) maxBackoff ∧
          visit.result ≠ none ∧ visit.result ≠ some (.ok .finished) ∧
          ∀ deadline, args.deadline = some deadline → a.nowNs + delay < deadline) ∧
      ∀ i visit, visits[i]? = some visit → visit.sleep = none → i + 1 = visits.length := by
  intro visits
  obtain ⟨turns, ops, hdrives, -⟩ := run_drives (.new args) [] ⟨rfl, rfl, .nil⟩ attempts
  have hnew : (Main.new args).backoff = min (2 ^ 0 * second) maxBackoff := rfl
  refine ⟨turns, ops, hdrives, ?_, stop_last args _ attempts⟩
  intro i visit a delay hvisit hattempt hsleep
  obtain ⟨hdelay, hrest⟩ := sleep_run hnew hvisit hattempt hsleep
  refine ⟨?_, hrest⟩
  rw [hdrives.gotMessages_eq] at hdelay
  have hle := silent_le (turns.map heard) i
  have hexponent : (if silent (turns.map heard) i = i + 1 then 0 + i
      else silent (turns.map heard) i) = min (silent (turns.map heard) i) i := by
    split
    · omega
    · omega
  rw [← hexponent]
  exact hdelay

/-! ## Delivering -/

/-- The quotes among some events. -/
def bbosOf (events : List Event) : List NormalizedBbo :=
  events.filterMap fun
    | .bbo bbo => some bbo
    | .trade _ => none

/-- The time from the exchange to the ingest. -/
def exchangeToLocal (b : NormalizedBbo) : Int64 :=
  b.telemetry.t1IngestNicNs.toInt64 - b.telemetry.t0ExchangeNs.toInt64

/-- What a sink holds after some events. -/
structure Holds (events : List Event) (s : Sink) : Prop where
  bbos : s.bbos = UInt64.ofNat (bbosOf events).length
  trades : s.trades = UInt64.ofNat (trades events).length
  exchangeToLocalNs : s.exchangeToLocalNs = ((bbosOf events).take 1000000).map exchangeToLocal
  length_buf : s.buf.length = Sbe.totalSbeBboLen
  cursor : s.ring.producerCursor ≤ (bbosOf events).length
  empty : (bbosOf events).length + 2 ^ 10 ≤ 2 ^ 64 → SpscRingBuffer.Represents s.ring []
  last : (bbosOf events).length + 2 ^ 10 ≤ 2 ^ 64 →
    ∀ b, (bbosOf events).getLast? = some b → Sbe.decodeBboSbe s.buf = .ok b

lemma holds_new : Holds [] Sink.new where
  bbos := rfl
  trades := rfl
  exchangeToLocalNs := rfl
  length_buf := List.length_replicate
  cursor := Nat.le_refl 0
  empty := fun _ => SpscRingBuffer.Represents.new
  last := fun _ b h => by cases h

/-- Pushed to an empty ring and popped at once. -/
lemma push_pop {r : SpscRingBuffer.Ring NormalizedBbo 10} (h : SpscRingBuffer.Represents r [])
    (hbelow : r.producerCursor + 1 + 2 ^ 10 ≤ 2 ^ 64) (b : NormalizedBbo) :
    (r.tryPush b).2.tryPop.1 = some b ∧
      SpscRingBuffer.Represents (r.tryPush b).2.tryPop.2 [] := by
  have hpush := SpscRingBuffer.push_simulates h (Nat.zero_le _) (by omega) b
  have hcursor := SpscRingBuffer.producerCursor_tryPush_le r b
  rw [if_pos (by simp)] at hpush
  exact SpscRingBuffer.pop_simulates hpush.2 (by omega)

/-- The encoding of a quote fills the buffer. -/
lemma encode_full (b : NormalizedBbo) {out : List UInt8} (h : out.length = Sbe.totalSbeBboLen) :
    (Sbe.encodeBboSbe b out).2.length = Sbe.totalSbeBboLen ∧
      Sbe.decodeBboSbe (Sbe.encodeBboSbe b out).2 = .ok b := by
  have hrest : (out.drop 92).length = 0 := by
    rw [List.length_drop, h]
    rfl
  rw [Sbe.encodeBboSbe_eq h.ge, List.length_append, Sbe.length_pack_bboFields, hrest]
  exact ⟨rfl, Sbe.decodeBboSbe_pack b _⟩

section Handle

variable (s : Sink) (b : NormalizedBbo)

lemma handle_bbos : (s.handle (.bbo b)).bbos = s.bbos + 1 := by simp only [Sink.handle]

lemma handle_trades : (s.handle (.bbo b)).trades = s.trades := by simp only [Sink.handle]

lemma handle_ring : (s.handle (.bbo b)).ring = (s.ring.tryPush b).2.tryPop.2 := by
  simp only [Sink.handle]

lemma handle_buf : (s.handle (.bbo b)).buf
    = (s.ring.tryPush b).2.tryPop.1.elim s.buf fun x => (Sbe.encodeBboSbe x s.buf).2 := by
  simp only [Sink.handle]
  split
  · rename_i hpopped
    rw [hpopped, Option.elim_some]
  · rename_i hpopped
    rw [hpopped, Option.elim_none]

lemma handle_exchangeToLocalNs : (s.handle (.bbo b)).exchangeToLocalNs
    = if s.exchangeToLocalNs.length < 1000000 then s.exchangeToLocalNs ++ [exchangeToLocal b]
      else s.exchangeToLocalNs := by
  simp only [Sink.handle, exchangeToLocal]

end Handle

lemma Holds.handle {events : List Event} {s : Sink} (h : Holds events s) (e : Event) :
    Holds (events ++ [e]) (s.handle e) := by
  have hevents : bbosOf (events ++ [e]) = bbosOf events ++ bbosOf [e] := List.filterMap_append
  cases e with
  | trade trade =>
    have hsame : bbosOf (events ++ [.trade trade]) = bbosOf events := by
      rw [hevents]
      exact List.append_nil _
    constructor
    · rw [hsame]
      exact h.bbos
    · rw [trades_append, List.length_append, UInt64.ofNat_add, ← h.trades]
      rfl
    · rw [hsame]
      exact h.exchangeToLocalNs
    · exact h.length_buf
    · rw [hsame]
      exact h.cursor
    · rw [hsame]
      exact h.empty
    · rw [hsame]
      exact h.last
  | bbo b =>
    have hmore : bbosOf (events ++ [.bbo b]) = bbosOf events ++ [b] := hevents
    have hlength : (bbosOf (events ++ [.bbo b])).length = (bbosOf events).length + 1 := by
      rw [hmore, List.length_append, List.length_singleton]
    have hcursor := h.cursor
    have hpushed := SpscRingBuffer.producerCursor_tryPush_le s.ring b
    constructor
    · rw [handle_bbos, hlength, UInt64.ofNat_add, ← h.bbos]
      rfl
    · rw [handle_trades, trades_append, List.length_append]
      exact h.trades
    · -- the first million only
      have hlist := h.exchangeToLocalNs
      have hsize := congrArg List.length hlist
      rw [List.length_map, List.length_take] at hsize
      rw [handle_exchangeToLocalNs, hmore, List.take_append]
      by_cases hroom : s.exchangeToLocalNs.length < 1000000
      · have hone : [b].take (1000000 - (bbosOf events).length) = [b] :=
          List.take_of_length_le (by rw [List.length_singleton]; omega)
        rw [if_pos hroom, hone, List.map_append, ← hlist, List.map_singleton]
      · have hnone : 1000000 - (bbosOf events).length = 0 := by omega
        rw [if_neg hroom, hnone, List.take_zero, List.append_nil]
        exact hlist
    · rw [handle_buf]
      cases (s.ring.tryPush b).2.tryPop.1 with
      | none => exact h.length_buf
      | some x => exact (encode_full x h.length_buf).1
    · rw [handle_ring, SpscRingBuffer.producerCursor_tryPop]
      omega
    · intro hbelow
      rw [handle_ring]
      exact (push_pop (h.empty (by omega)) (by omega) b).2
    · intro hbelow b' hlast
      obtain ⟨hpopped, -⟩ := push_pop (h.empty (by omega)) (by omega) b
      have hb : b = b' := by
        rw [hmore, List.getLast?_concat] at hlast
        exact Option.some.inj hlast
      rw [handle_buf, hpopped, Option.elim_some, ← hb]
      exact (encode_full b h.length_buf).2

lemma holds_foldl (events : List Event) : Holds events (events.foldl Sink.handle .new) := by
  induction events using List.reverseRecOn with
  | nil => exact holds_new
  | append_singleton events e ih =>
    rw [List.foldl_append]
    exact ih.handle e

/-- An event is a quote or a trade. -/
lemma length_events (events : List Event) :
    events.length = (bbosOf events).length + (trades events).length := by
  induction events with
  | nil => rfl
  | cons e events ih =>
    cases e with
    | bbo b =>
      show events.length + 1 = (bbosOf events).length + 1 + (trades events).length
      omega
    | trade trade =>
      show events.length + 1 = (bbosOf events).length + ((trades events).length + 1)
      omega

/-- After every run of the feed the sink holds what its session has given out: as `u64` words it
has counted each event, which is the session's own count, it has kept the delays of the first
million quotes, and while the cursors of its ring are below the end of their words its buffer
decodes to the last quote. -/
theorem live_feed_delivers (args : Args) (attempts : List Attempt) :
    let visits := ((Main.new args).run args attempts).1
    let m := ((Main.new args).run args attempts).2
    ∃ turns ops, Drives args [] attempts visits turns ops ∧
      m.session = (SessionRun.run (.new args.products staleAfterMs) ops).session ∧
      Holds (SessionRun.run (.new args.products staleAfterMs) ops).out m.sink ∧
      m.session.stats.eventsEmitted = m.sink.bbos + m.sink.trades := by
  intro visits m
  obtain ⟨turns, ops, hdrives, hreached⟩ := run_drives (.new args) [] ⟨rfl, rfl, .nil⟩ attempts
  have hholds := holds_foldl (SessionRun.run (.new args.products staleAfterMs) ops).out
  rw [← hreached.sink_eq] at hholds
  refine ⟨turns, ops, hdrives, hreached.session_eq, hholds, ?_⟩
  have hemitted := emitted_run (.new args.products staleAfterMs) ops
  rw [← hreached.session_eq, length_events, UInt64.ofNat_add, ← hholds.bbos,
    ← hholds.trades] at hemitted
  rw [hemitted]
  exact UInt64.zero_add _

end Runner
end ChainMarketPrice.LiveFeed
