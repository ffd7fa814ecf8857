import ChainMarketPrice.CefiIngest.TransportPlayback

/-!
# Transports over a socket

What the standard socket hands over and counts (`socket_accounts`), and that the completion ring
over the same socket does the same (`ring_agrees_with_socket`): the factory falls back from one
to the other.
-/

namespace ChainMarketPrice.CefiIngest
namespace Transport

open IoUring

/-! ## The standard socket -/

/-- The datagrams among some results, cut to the receive buffer. -/
def datagrams (results : List Recv) : List Packet :=
  results.filterMap fun
    | .datagram bytes timestampNs => some (bytes.take socketRxBufferSize, timestampNs)
    | _ => none

namespace StandardSocketTransport

/-- The loop reads a first part of the results and hands over its datagrams. -/
lemma recvLoop_reads (n : ℕ) (socket : Socket) (h : Handled) :
    ∃ read, socket = read ++ (recvLoop n socket h).2.1 ∧
      (recvLoop n socket h).2.2 = (datagrams read).foldl Handled.add h := by
  induction n generalizing socket h with
  | zero => exact ⟨[], rfl, rfl⟩
  | succ n ih =>
    cases socket with
    | nil => exact ⟨[], rfl, rfl⟩
    | cons r socket =>
      cases r with
      | datagram bytes timestampNs =>
        obtain ⟨read, hread, hhandled⟩ :=
          ih socket (h.add (bytes.take socketRxBufferSize, timestampNs))
        exact ⟨.datagram bytes timestampNs :: read, congrArg _ hread, hhandled⟩
      | wouldBlock => exact ⟨[.wouldBlock], rfl, rfl⟩
      | interrupted =>
        obtain ⟨read, hread, hhandled⟩ := ih socket h
        exact ⟨.interrupted :: read, congrArg _ hread, hhandled⟩
      | failed message => exact ⟨[.failed message], rfl, rfl⟩

def call (t : StandardSocketTransport) (maxBatch : ℕ) :
    (Except TransportError ℕ × List Packet) × StandardSocketTransport :=
  let (result, t, packets) := t.pollBatch maxBatch
  ((result, packets), t)

end StandardSocketTransport

/-- The packets of the polls that have succeeded. -/
def counted (answers : List (Except TransportError ℕ × List Packet)) : List Packet :=
  answers.flatMap fun
    | (.ok _, packets) => packets
    | (.error _, _) => []

/-- The polls that have succeeded without a packet. -/
def idlePolls (answers : List (Except TransportError ℕ × List Packet)) : ℕ :=
  answers.countP fun
    | (.ok 0, _) => true
    | _ => false

/-- What a transport over a socket has done in some polls. -/
structure Accounts (socket : Socket) (answers : List (Except TransportError ℕ × List Packet))
    (t : StandardSocketTransport) : Prop where
  active : t.isActive = true
  read : ∃ read, socket = read ++ t.socket ∧ answers.flatMap (·.2) = datagrams read
  results : ∀ answer ∈ answers, ∀ n, answer.1 = .ok n → n = answer.2.length
  pollCalls : t.stats.pollCalls = .ofNat answers.length
  emptyPolls : t.stats.emptyPolls = .ofNat (idlePolls answers)
  rxPackets : t.stats.rxPackets = .ofNat (counted answers).length
  rxBytes : t.stats.rxBytes = .ofNat ((counted answers).map (·.1.length)).sum

lemma accounts_bind (socket : Socket) :
    Accounts socket [] (StandardSocketTransport.bind socket) where
  active := rfl
  read := ⟨[], rfl, rfl⟩
  results := by simp
  pollCalls := rfl
  emptyPolls := rfl
  rxPackets := rfl
  rxBytes := rfl

lemma Accounts.call {socket : Socket} {answers : List (Except TransportError ℕ × List Packet)}
    {t : StandardSocketTransport} (h : Accounts socket answers t) (n : ℕ) :
    Accounts socket (answers ++ [(t.call n).1]) (t.call n).2 := by
  obtain ⟨read, hsocket, hhanded⟩ := h.read
  obtain ⟨more, hmore, hloop⟩ := StandardSocketTransport.recvLoop_reads n t.socket .none
  rw [foldl_add_none] at hloop
  have hread : ∃ read, socket = read ++ (StandardSocketTransport.recvLoop n t.socket .none).2.1 ∧
      answers.flatMap (·.2) ++ datagrams more = datagrams read := by
    refine ⟨read ++ more, ?_, ?_⟩
    · rw [List.append_assoc, ← hmore]
      exact hsocket
    · rw [hhanded]
      exact List.filterMap_append.symm
  have hpolls : t.stats.pollCalls + 1 = .ofNat (answers.length + 1) := by
    rw [h.pollCalls, UInt64.ofNat_add]
    rfl
  unfold StandardSocketTransport.call StandardSocketTransport.pollBatch
  rw [if_neg (by simp [h.active])]
  dsimp only
  rw [hloop]
  cases (StandardSocketTransport.recvLoop n t.socket .none).1 with
  | some message =>
    -- the packets of this poll are not counted
    have hcounted : counted (answers ++ [(.error (.io message), datagrams more)])
        = counted answers := by simp [counted]
    have hidle : idlePolls (answers ++ [(.error (.io message), datagrams more)])
        = idlePolls answers := by simp [idlePolls]
    constructor
    · exact h.active
    · simpa using hread
    · intro answer hanswer m hm
      rcases List.mem_append.mp hanswer with hanswer | hanswer
      · exact h.results answer hanswer m hm
      · rw [List.mem_singleton.mp hanswer] at hm
        cases hm
    · rw [List.length_append]
      exact hpolls
    · rw [hidle]
      exact h.emptyPolls
    · rw [hcounted]
      exact h.rxPackets
    · rw [hcounted]
      exact h.rxBytes
  | none =>
    have hcounted : counted (answers ++ [(.ok (datagrams more).length, datagrams more)])
        = counted answers ++ datagrams more := by simp [counted]
    have hresults : ∀ answer ∈ answers ++ [(.ok (datagrams more).length, datagrams more)],
        ∀ m, answer.1 = .ok m → m = answer.2.length := by
      intro answer hanswer m hm
      rcases List.mem_append.mp hanswer with hanswer | hanswer
      · exact h.results answer hanswer m hm
      · rw [List.mem_singleton.mp hanswer] at hm ⊢
        exact (Except.ok.inj hm).symm
    by_cases hnone : (datagrams more).length = 0
    · have hnil : datagrams more = [] := List.length_eq_zero_iff.mp hnone
      have hidle : idlePolls (answers ++ [(.ok (datagrams more).length, datagrams more)])
          = idlePolls answers + 1 := by simp [idlePolls, hnone]
      rw [if_pos hnone]
      constructor
      · exact h.active
      · simpa using hread
      · exact hresults
      · rw [List.length_append]
        exact hpolls
      · rw [hidle, UInt64.ofNat_add, ← h.emptyPolls]
        rfl
      · rw [hcounted, hnil, List.append_nil]
        exact h.rxPackets
      · rw [hcounted, hnil, List.append_nil]
        exact h.rxBytes
    · have hidle : idlePolls (answers ++ [(.ok (datagrams more).length, datagrams more)])
          = idlePolls answers := by
        obtain ⟨m, hm⟩ := Nat.exists_eq_succ_of_ne_zero hnone
        simp [idlePolls, hm]
      rw [if_neg hnone]
      constructor
      · exact h.active
      · simpa using hread
      · exact hresults
      · rw [List.length_append]
        exact hpolls
      · rw [hidle]
        exact h.emptyPolls
      · rw [hcounted, List.length_append, UInt64.ofNat_add, ← h.rxPackets]
      · rw [hcounted, List.map_append, List.sum_append, UInt64.ofNat_add, ← h.rxBytes]

lemma Accounts.run {socket : Socket} {answers : List (Except TransportError ℕ × List Packet)}
    {t : StandardSocketTransport} (h : Accounts socket answers t) (polls : List ℕ) :
    Accounts socket (answers ++ (Transducer.run StandardSocketTransport.call t polls).1)
      (Transducer.run StandardSocketTransport.call t polls).2 := by
  induction polls generalizing answers t with
  | nil =>
    rw [Transducer.run, List.append_nil]
    exact h
  | cons n polls ih =>
    have hrest := ih (h.call n)
    rw [List.append_assoc, List.singleton_append] at hrest
    exact hrest

/-- Over any polls of a socket, whatever it returns: each datagram that is read is handed over,
in order and cut to the receive buffer; a poll that succeeds returns how many it has handed
over. The counters leave out the packets of the polls that have failed. -/
theorem socket_accounts (socket : Socket) (polls : List ℕ) :
    Accounts socket
      (Transducer.run StandardSocketTransport.call (.bind socket) polls).1
      (Transducer.run StandardSocketTransport.call (.bind socket) polls).2 :=
  (accounts_bind socket).run polls

/-! ## The ring over a socket -/

/-- Nothing but datagrams that fit a buffer of the ring. -/
def Recv.Quiet : Recv → Prop
  | .datagram bytes _ => bytes.length ≤ ioUringEntrySize
  | .wouldBlock => True
  | .interrupted => False
  | .failed _ => False

instance : DecidablePred Recv.Quiet
  | .datagram bytes _ => inferInstanceAs (Decidable (bytes.length ≤ ioUringEntrySize))
  | .wouldBlock => inferInstanceAs (Decidable True)
  | .interrupted => inferInstanceAs (Decidable False)
  | .failed _ => inferInstanceAs (Decidable False)

/-- The datagrams that a poll finds, and the results behind them. -/
def arrived : ℕ → Socket → List Packet × Socket
  | 0, socket => ([], socket)
  | n + 1, socket =>
    match recv socket with
    | (.datagram bytes timestampNs, socket) =>
      ((bytes, timestampNs) :: (arrived n socket).1, (arrived n socket).2)
    | (_, socket) => ([], socket)

lemma length_arrived_le (n : ℕ) (socket : Socket) : (arrived n socket).1.length ≤ n := by
  induction n generalizing socket with
  | zero => exact Nat.le_refl 0
  | succ n ih =>
    cases socket with
    | nil => exact Nat.zero_le _
    | cons r socket =>
      cases r with
      | datagram bytes timestampNs => exact Nat.succ_le_succ (ih socket)
      | wouldBlock => exact Nat.zero_le _
      | interrupted => exact Nat.zero_le _
      | failed message => exact Nat.zero_le _

lemma arrived_quiet (n : ℕ) {socket : Socket} (hquiet : ∀ r ∈ socket, r.Quiet) :
    ∀ r ∈ (arrived n socket).2, r.Quiet := by
  induction n generalizing socket with
  | zero => exact hquiet
  | succ n ih =>
    cases socket with
    | nil => exact hquiet
    | cons r socket =>
      have hrest := List.forall_mem_of_forall_mem_cons hquiet
      cases r with
      | datagram bytes timestampNs => exact ih hrest
      | wouldBlock => exact hrest
      | interrupted => exact hrest
      | failed message => exact hrest

/-- The loop of the standard socket stops where a ring would. -/
lemma recvLoop_quiet (n : ℕ) {socket : Socket} (hquiet : ∀ r ∈ socket, r.Quiet) (h : Handled) :
    StandardSocketTransport.recvLoop n socket h
      = (none, (arrived n socket).2, (arrived n socket).1.foldl Handled.add h) := by
  induction n generalizing socket h with
  | zero => rfl
  | succ n ih =>
    cases socket with
    | nil => rfl
    | cons r socket =>
      have hrest := List.forall_mem_of_forall_mem_cons hquiet
      have hr := hquiet r List.mem_cons_self
      cases r with
      | datagram bytes timestampNs =>
        have hsize : bytes.length ≤ ioUringEntrySize := hr
        have hcut : bytes.take socketRxBufferSize = bytes :=
          List.take_of_length_le (hsize.trans (by decide))
        show StandardSocketTransport.recvLoop n socket
          (h.add (bytes.take socketRxBufferSize, timestampNs)) = _
        rw [hcut, ih hrest]
        rfl
      | wouldBlock => rfl
      | interrupted => exact absurd hr id
      | failed message => exact absurd hr id

/-- A datagram goes into the ring as an injected packet does. -/
lemma pollSocketIntoRing_datagram (n : ℕ) {t : IoUringTransport}
    (hfree : t.freeBufferIndices ≠ []) (bytes : List UInt8) (ts : UInt64) (socket : Socket) :
    pollSocketIntoRing (n + 1) t (.datagram bytes ts :: socket)
      = pollSocketIntoRing n (t.injectPacket bytes ts).2 socket := by
  obtain ⟨free, idx, hlast⟩ := (List.eq_nil_or_concat t.freeBufferIndices).resolve_left hfree
  rw [List.concat_eq_append] at hlast
  rw [injectPacket_room hlast, pollSocketIntoRing, hlast, List.getLast?_concat]
  dsimp only [recv]
  rw [List.dropLast_concat]

/-- The packets that a poll moves from the socket into the ring. -/
lemma pollSocketIntoRing_plays {entries : ℕ} (n : ℕ) {t : IoUringTransport}
    {mock : MockNetworkTransport} (h : RingPlays entries t mock)
    (hroom : mock.queue.length + n ≤ entries) {socket : Socket}
    (hquiet : ∀ r ∈ socket, r.Quiet) :
    RingPlays entries (pollSocketIntoRing n t socket).1
        { mock with queue := mock.queue ++ (arrived n socket).1 } ∧
      (pollSocketIntoRing n t socket).2 = (arrived n socket).2 := by
  induction n generalizing t mock socket with
  | zero =>
    rw [arrived, List.append_nil]
    exact ⟨h, rfl⟩
  | succ n ih =>
    have hfree : t.freeBufferIndices ≠ [] := by
      obtain ⟨⟨s, hinv, rfl⟩, hpending, -, -⟩ := h
      intro hnone
      have hfull := hinv.full_iff.mp hnone
      rw [hpending] at hfull
      omega
    have hsame : RingPlays entries t { mock with queue := mock.queue ++ [] } := by
      rw [List.append_nil]
      exact h
    have hlast : t.freeBufferIndices.getLast? = some (t.freeBufferIndices.getLast hfree) :=
      List.getLast?_eq_some_getLast hfree
    cases socket with
    | nil =>
      rw [pollSocketIntoRing, hlast]
      exact ⟨hsame, rfl⟩
    | cons r socket =>
      have hrest := List.forall_mem_of_forall_mem_cons hquiet
      have hr := hquiet r List.mem_cons_self
      cases r with
      | datagram bytes timestampNs =>
        obtain ⟨-, hplays⟩ := ring_inject h (by omega) (show bytes.length ≤ _ from hr) timestampNs
        have hmore : (mock.pushPacket bytes timestampNs).queue.length + n ≤ entries := by
          show (mock.queue ++ [(bytes, timestampNs)]).length + n ≤ entries
          rw [List.length_append, List.length_singleton]
          omega
        obtain ⟨hplays, hsocket⟩ := ih hplays hmore hrest
        rw [pollSocketIntoRing_datagram n hfree]
        refine ⟨?_, hsocket⟩
        have hqueue : (mock.pushPacket bytes timestampNs).queue ++ (arrived n socket).1
            = mock.queue ++ (arrived (n + 1) (.datagram bytes timestampNs :: socket)).1 :=
          List.append_assoc _ _ _
        rw [← hqueue]
        exact hplays
      | wouldBlock =>
        rw [pollSocketIntoRing, hlast]
        exact ⟨hsame, rfl⟩
      | interrupted => exact absurd hr id
      | failed message => exact absurd hr id

def RingOverSocket.call (t : RingOverSocket) (maxBatch : ℕ) :
    (Except TransportError ℕ × List Packet) × RingOverSocket :=
  let (result, t, packets) := t.pollBatch maxBatch
  ((result, packets), t)

/-- Between two polls nothing waits in the ring, and it has counted what the standard socket
has. -/
structure SocketsAgree (entries : ℕ) (t : RingOverSocket) (t' : StandardSocketTransport) : Prop where
  plays : RingPlays entries t.ring { queue := [], stats := t'.stats, isActive := true }
  socket : t.socket = t'.socket
  quiet : ∀ r ∈ t'.socket, r.Quiet
  active : t'.isActive = true

lemma sockets_call {entries : ℕ} {t : RingOverSocket} {t' : StandardSocketTransport}
    (h : SocketsAgree entries t t') {n : ℕ} (hn : n ≤ entries) :
    (t.call n).1 = (t'.call n).1 ∧ SocketsAgree entries (t.call n).2 (t'.call n).2 := by
  obtain ⟨hplays, hsocket, hquiet, hactive⟩ := h
  have hle := length_arrived_le n t'.socket
  have hringActive : t.ring.isActive = true := by
    obtain ⟨⟨s, hinv, hs⟩, -⟩ := hplays
    rw [← hs]
    exact hinv.active
  obtain ⟨hfilled, hleft⟩ := pollSocketIntoRing_plays n hplays (by simpa using hn) hquiet
  obtain ⟨hresult, hpackets, hpolled⟩ := ring_poll hfilled n
  rw [MockNetworkTransport.pollBatch_eq rfl] at hpolled
  dsimp only [List.nil_append] at hresult hpackets hpolled
  rw [Nat.min_eq_right hle] at hresult
  rw [List.take_of_length_le hle] at hpackets
  rw [List.drop_eq_nil_of_le hle] at hpolled
  -- what the standard socket does
  have hstandard : t'.pollBatch n
      = (.ok (arrived n t'.socket).1.length, { t' with
          socket := (arrived n t'.socket).2
          stats := afterPoll t'.stats (arrived n t'.socket).1 n }, (arrived n t'.socket).1) := by
    unfold StandardSocketTransport.pollBatch afterPoll
    rw [if_neg (by simp [hactive])]
    dsimp only
    rw [recvLoop_quiet n hquiet, foldl_add_none, Nat.min_eq_right hle,
      List.take_of_length_le hle]
    dsimp only
    cases (arrived n t'.socket).1 with
    | nil => rfl
    | cons packet packets => rfl
  have hring : t.pollBatch n
      = (.ok (arrived n t'.socket).1.length,
          { ring := ((pollSocketIntoRing n t.ring t'.socket).1.pollBatch n).2.1
            socket := (arrived n t'.socket).2 }, (arrived n t'.socket).1) := by
    unfold RingOverSocket.pollBatch
    rw [if_pos hringActive, hsocket]
    dsimp only
    rw [hleft, hresult, hpackets]
    rfl
  unfold RingOverSocket.call StandardSocketTransport.call
  rw [hstandard, hring]
  exact ⟨rfl, hpolled, rfl, arrived_quiet n hquiet, hactive⟩

/-- Over a socket that returns only datagrams of up to 2048 bytes, or none, and polls that ask
for no more than the ring has entries: the completion ring returns, hands over and counts what
the standard socket does. -/
theorem ring_agrees_with_socket {requested : UInt64} (hsize : ringEntries requested ≤ 2 ^ 32)
    {socket : Socket} (hquiet : ∀ r ∈ socket, r.Quiet) {polls : List ℕ}
    (hpolls : ∀ n ∈ polls, n ≤ ringEntries requested) :
    (Transducer.run RingOverSocket.call (.bind requested socket) polls).1
        = (Transducer.run StandardSocketTransport.call (.bind socket) polls).1 ∧
      (Transducer.run RingOverSocket.call (.bind requested socket) polls).2.ring.stats
        = (Transducer.run StandardSocketTransport.call (.bind socket) polls).2.stats := by
  let R (polls : List ℕ) (t : RingOverSocket) (t' : StandardSocketTransport) : Prop :=
    SocketsAgree (ringEntries requested) t t' ∧ ∀ n ∈ polls, n ≤ ringEntries requested
  have hstep : ∀ n polls t t', R (n :: polls) t t' →
      (t.call n).1 = (t'.call n).1 ∧ R polls (t.call n).2 (t'.call n).2 := by
    intro n polls t t' ⟨hagree, hpolls⟩
    obtain ⟨hanswer, hnext⟩ := sockets_call hagree (hpolls n List.mem_cons_self)
    exact ⟨hanswer, hnext, List.forall_mem_of_forall_mem_cons hpolls⟩
  have hinit : R polls (.bind requested socket) (.bind socket) :=
    ⟨⟨ring_new hsize, rfl, hquiet, rfl⟩, hpolls⟩
  obtain ⟨hanswers, hlast, -⟩ := Transducer.run_simulation_ahead (R := R) hstep hinit
  exact ⟨hanswers, hlast.plays.stats⟩

/-- Two polls of a ring of two entries, the first one with more datagrams than it asks for. -/
theorem ring_agrees_with_socket_twice :
    (Transducer.run RingOverSocket.call
        (.bind 2 [.datagram [1] 5, .datagram [2, 3] 6, .datagram [4] 7, .wouldBlock]) [2, 1, 0]).1
      = (Transducer.run StandardSocketTransport.call
        (.bind [.datagram [1] 5, .datagram [2, 3] 6, .datagram [4] 7, .wouldBlock]) [2, 1, 0]).1 :=
  (@ring_agrees_with_socket 2 (by decide) _ (by decide) _ (by decide)).1

end Transport
end ChainMarketPrice.CefiIngest
