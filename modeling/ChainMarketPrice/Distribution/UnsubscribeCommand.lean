import ChainMarketPrice.Lib.TextPieces
import ChainMarketPrice.Distribution.SubscriptionIsolation

/-!
# A subscribe command and its unsubscribe command

The two commands differ in their action alone. Both name a topic by the numbers they carry, but
the topic of an unsubscribe command has no flags. So the pair of them leaves the client where it
was only without flags, or if the client had the subscription before
(`unsubscribe_undoes_iff`).
-/

namespace ChainMarketPrice.Distribution
namespace WebSocket

open Bytes InvertedTopicRouter Text

/-! ## Numbers behind a key -/

lemma trimStart_ascii {b : UInt8} (hascii : b < 0x80) (h : isSpace1 b = false)
    (rest : List UInt8) : trimStart (b :: rest) = b :: rest := by
  have hlead : b < 0x80 → b ≠ 0xC2 ∧ b ≠ 0xE1 ∧ b ≠ 0xE2 ∧ b ≠ 0xE3 :=
    forall_byte (P := fun b => b < 0x80 → b ≠ 0xC2 ∧ b ≠ 0xE1 ∧ b ≠ 0xE2 ∧ b ≠ 0xE3)
      (by decide +kernel) b
  obtain ⟨hC2, hE1, hE2, hE3⟩ := hlead hascii
  match rest with
  | [] => simp [trimStart, h]
  | [b1] => simp [trimStart, h, isSpace2, hC2]
  | b1 :: b2 :: rest => simp [trimStart, h, isSpace2, isSpace3, hC2, hE1, hE2, hE3]

lemma trimStart_digit {b : UInt8} (h : isDigit b = true) (rest : List UInt8) :
    trimStart (b :: rest) = b :: rest := by
  have hspace : isDigit b = true → isSpace1 b = false :=
    forall_byte (P := fun b => isDigit b = true → isSpace1 b = false) (by decide +kernel) b
  exact trimStart_ascii (lt_of_isDigit b h) (hspace h) rest

lemma trimStart_space {b : UInt8} (h : isSpace1 b = true) (rest : List UInt8) :
    trimStart (b :: rest) = trimStart rest := by
  match rest with
  | [] => simp [trimStart, h]
  | [b1] => rw [trimStart, if_pos h]
  | b1 :: b2 :: rest => rw [trimStart, if_pos h]

/-- The digits behind a key are the number that the key carries; white space may stand between. -/
lemma carries_of_after_blanks {text : List UInt8} {key : String} {blanks digits rest : List UInt8}
    (hafter : after (pattern1 key) text = some (blanks ++ (digits ++ rest)))
    (hblanks : ∀ b ∈ blanks, isSpace1 b = true) (hne : digits ≠ [])
    (hdigits : AllDigits digits) (hrest : ∀ b ∈ rest.head?, isDigit b = false) :
    Carries text key (decimalValue digits) := by
  obtain ⟨pos, hpos, hdrop⟩ := Option.map_eq_some_iff.mp hafter
  obtain ⟨b, digits', hcons, hb⟩ := exists_cons_of_allDigits hdigits hne
  refine ⟨pos, hpos, digits, ?_, hne, rfl⟩
  have htrim : trimStart (blanks ++ (digits ++ rest)) = digits ++ rest := by
    clear hafter hdrop
    induction blanks with
    | nil =>
      -- no white space is in front of a digit
      rw [List.nil_append, hcons, List.cons_append, trimStart_digit hb]
    | cons blank blanks ih =>
      rw [List.forall_mem_cons] at hblanks
      rw [List.cons_append, trimStart_space hblanks.1]
      exact ih hblanks.2
  rw [hdrop, htrim, (takeWhile_digits hdigits hrest).1]

/-- The digits right behind a key. -/
lemma carries_of_after {text : List UInt8} {key : String} {digits rest : List UInt8}
    (hafter : after (pattern1 key) text = some (digits ++ rest)) (hne : digits ≠ [])
    (hdigits : AllDigits digits) (hrest : ∀ b ∈ rest.head?, isDigit b = false) :
    Carries text key (decimalValue digits) :=
  carries_of_after_blanks hafter (fun _ hmem => absurd hmem List.not_mem_nil) hne
    hdigits hrest

/-! ## The texts of the commands -/

/-- A number below a bound as a command writes it: decimal digits. -/
structure Numeral (bound : ℕ) where
  digits : List UInt8
  ne_nil : digits ≠ []
  allDigits : AllDigits digits
  lt : decimalValue digits < bound

def Numeral.value {bound : ℕ} (n : Numeral bound) : ℕ := decimalValue n.digits

/-- The numbers of a command, in the ranges that a topic keeps. -/
structure CommandFields where
  venue : Numeral (2 ^ 8)
  marketId : Numeral (2 ^ 24)
  streamType : Numeral (2 ^ 8)
  flags : Numeral (2 ^ 24)

/-- The topic with the given flags. -/
def CommandFields.topic (fields : CommandFields) (flags : ℕ) : TopicKey :=
  .new (UInt64.ofNat fields.venue.value).toUInt8 (UInt64.ofNat fields.marketId.value).toUInt32
    (UInt64.ofNat fields.streamType.value).toUInt8 (UInt64.ofNat flags).toUInt32

def commandPieces (action : String) (fields : CommandFields) : List Piece :=
  [⟨ofString ("\x7b\"action\":\"" ++ action ++ "\",\"venue\":"), fields.venue.digits⟩,
    ⟨ofString ",\"market_id\":", fields.marketId.digits⟩,
    ⟨ofString ",\"stream_type\":", fields.streamType.digits⟩,
    ⟨ofString ",\"flags\":", fields.flags.digits⟩]

/-- The text of a command. -/
def commandText (action : String) (fields : CommandFields) : List UInt8 :=
  join (commandPieces action fields) (ofString "\x7d")

lemma isNumber_commandPieces (action : String) (fields : CommandFields) :
    ∀ piece ∈ commandPieces action fields, piece.IsNumber := by
  have hnumber : ∀ {bound : ℕ} (literal : List UInt8) (n : Numeral bound),
      Piece.IsNumber ⟨literal, n.digits⟩ :=
    fun literal n => isNumber_digits literal n.allDigits n.ne_nil
  simp only [commandPieces, List.forall_mem_cons, hnumber, true_and]
  exact fun piece hmem => absurd hmem List.not_mem_nil

/-- The text is ASCII if the action is. -/
lemma isUtf8_commandText {action : String} (fields : CommandFields)
    (h : (ofString ("\x7b\"action\":\"" ++ action ++ "\",\"venue\":")).all (· < 0x80) = true) :
    isUtf8 (commandText action fields) = true := by
  have hnumber : ∀ {bound : ℕ} (n : Numeral bound), ∀ b ∈ n.digits, b < 0x80 :=
    fun n b hb => lt_of_isDigit b (n.allDigits b hb)
  have hliteral : ∀ {literal : List UInt8}, literal.all (· < 0x80) = true →
      ∀ b ∈ literal, b < 0x80 :=
    fun hall b hb => of_decide_eq_true (List.all_eq_true.mp hall b hb)
  apply isUtf8_of_ascii
  simp only [commandText, commandPieces, join, List.foldr_cons, List.foldr_nil,
    List.forall_mem_append]
  exact ⟨hliteral h, hnumber _, hliteral (by decide), hnumber _, hliteral (by decide), hnumber _,
    hliteral (by decide), hnumber _, hliteral (by decide)⟩

/-! ## Parsing the commands -/

/-- A pattern that begins with a quote is in the text only if it is in the literals. -/
lemma not_contains_commandText {action : String} {fields : CommandFields} {pattern : List UInt8}
    (hquote : pattern.head? = some quote)
    (h : absent pattern (commandPieces action fields) (ofString "\x7d") = true) :
    contains (commandText action fields) pattern = false := by
  obtain ⟨pattern, rfl⟩ := List.head?_eq_some_iff.mp hquote
  rw [contains, commandText, find_join_eq_none (isNumber_commandPieces action fields) h]
  rfl

/-- A key that stands right before a number carries it. -/
lemma carries_commandText {action : String} {fields : CommandFields} {key : String} {bound : ℕ}
    {n : Numeral bound} {later : List Piece} (hquote : (pattern1 key).head? = some quote)
    (h : lookup (pattern1 key) (commandPieces action fields) = some ([], n.digits, later))
    (hrest : ∀ b ∈ (join later (ofString "\x7d")).head?, isDigit b = false) :
    Carries (commandText action fields) key n.value := by
  refine carries_of_after ?_ n.ne_nil n.allDigits hrest
  obtain ⟨pattern, hpattern⟩ := List.head?_eq_some_iff.mp hquote
  rw [hpattern] at h ⊢
  exact after_join _ (isNumber_commandPieces action fields) h

/-- A pattern within the first literal is in the text. -/
lemma contains_commandText {action : String} {fields : CommandFields} {pattern : List UInt8}
    (h : contains (ofString ("\x7b\"action\":\"" ++ action ++ "\",\"venue\":")) pattern = true) :
    contains (commandText action fields) pattern = true := by
  obtain ⟨pos, hpos⟩ := Option.isSome_iff_exists.mp h
  have hfind := find_append_of_some hpos (fields.venue.digits
    ++ join (commandPieces action fields).tail (ofString "\x7d"))
  exact Option.isSome_iff_exists.mpr ⟨pos, hfind⟩

lemma hasAction_commandText {action : String} {fields : CommandFields}
    (h : contains (ofString ("\x7b\"action\":\"" ++ action ++ "\",\"venue\":"))
      (ofString ("\"action\":\"" ++ action ++ "\"")) = true) :
    hasAction (commandText action fields) action = true := by
  rw [hasAction, contains_commandText h, Bool.true_or]

/-- What the scanner gets from the text of a command, besides its action. -/
structure Scanned (text : List UInt8) (fields : CommandFields) : Prop where
  utf8 : isUtf8 text = true
  ping : hasAction text "ping" = false
  pong : hasAction text "pong" = false
  venue : extractJsonU64 text "venue" = some (UInt64.ofNat fields.venue.value)
  marketId : extractJsonU64 text "market_id" = some (UInt64.ofNat fields.marketId.value)
  streamType : extractJsonU64 text "stream_type" = some (UInt64.ofNat fields.streamType.value)
  flags : extractJsonU64 text "flags" = some (UInt64.ofNat fields.flags.value)

/-- The number of a field is read as it is. -/
lemma extractJsonU64_of_numeral {text : List UInt8} {key : String} {bound : ℕ} {n : Numeral bound}
    (h : Carries text key n.value) (hbound : bound ≤ 2 ^ 64) :
    extractJsonU64 text key = some (UInt64.ofNat n.value) := by
  have hlt : n.value < 2 ^ 64 := lt_of_lt_of_le n.lt hbound
  rw [extractJsonU64_of_carries h, if_pos hlt]

lemma scanned_commandText {action : String} (h : action = "subscribe" ∨ action = "unsubscribe")
    (fields : CommandFields) : Scanned (commandText action fields) fields := by
  -- either way the literals are known, and the searches in them are computed
  have hcomma : ∀ {rest : List UInt8}, ∀ b ∈ (44 :: rest).head?, isDigit b = false := by
    intro rest b hb
    cases hb
    decide
  rcases h with rfl | rfl
  all_goals
    refine ⟨isUtf8_commandText fields (by decide), ?_, ?_, ?_, ?_, ?_, ?_⟩
    · rw [hasAction, not_contains_commandText rfl rfl, not_contains_commandText rfl rfl]
      rfl
    · rw [hasAction, not_contains_commandText rfl rfl, not_contains_commandText rfl rfl]
      rfl
    · exact extractJsonU64_of_numeral (carries_commandText rfl rfl hcomma) (by decide)
    · exact extractJsonU64_of_numeral (carries_commandText rfl rfl hcomma) (by decide)
    · exact extractJsonU64_of_numeral (carries_commandText rfl rfl hcomma) (by decide)
    · refine extractJsonU64_of_numeral (carries_commandText rfl rfl ?_) (by decide)
      intro b hb
      cases hb
      decide

lemma parse_subscribe (fields : CommandFields) :
    parseClientCommand (commandText "subscribe" fields)
      = some (.subscribe (fields.topic fields.flags.value)) := by
  have hscan := scanned_commandText (.inl rfl) fields
  have haction : hasAction (commandText "subscribe" fields) "subscribe" = true :=
    hasAction_commandText (by decide)
  unfold parseClientCommand
  rw [hscan.utf8, hscan.ping, hscan.pong, haction, hscan.venue, hscan.marketId, hscan.streamType,
    hscan.flags]
  rfl

/-- The topic of an unsubscribe command has no flags. -/
lemma parse_unsubscribe (fields : CommandFields) :
    parseClientCommand (commandText "unsubscribe" fields)
      = some (.unsubscribe (fields.topic 0)) := by
  have hscan := scanned_commandText (.inr rfl) fields
  have hother : hasAction (commandText "unsubscribe" fields) "subscribe" = false := by
    rw [hasAction, not_contains_commandText rfl rfl, not_contains_commandText rfl rfl]
    rfl
  have haction : hasAction (commandText "unsubscribe" fields) "unsubscribe" = true :=
    hasAction_commandText (by decide)
  unfold parseClientCommand
  rw [hscan.utf8, hscan.ping, hscan.pong, hother, haction, hscan.venue, hscan.marketId,
    hscan.streamType]
  rfl

/-! ## The pair of commands -/

/-- A text frame with the given text, masked or not. -/
def CarriesText (frame text : List UInt8) : Prop :=
  ∃ header, readFrame frame = .ok (header, text) ∧ header.opcode = .text

/-- The router after the two frames of a client. -/
def afterFrames (r : InvertedTopicRouter) (c : UInt32) (subscribeFrame unsubscribeFrame : List UInt8)
    (nowMs nowMs' : UInt64) : InvertedTopicRouter :=
  (handleInboundFrame (handleInboundFrame r c subscribeFrame nowMs).router c unsubscribeFrame
    nowMs').router

lemma router_handleInboundFrame {frame text : List UInt8} (h : CarriesText frame text)
    (r : InvertedTopicRouter) (c : UInt32) (nowMs : UInt64) :
    (handleInboundFrame r c frame nowMs).router
      = (EngineOp.textOps c text).foldl InvertedTopicRouter.apply r := by
  obtain ⟨header, hread, hopcode⟩ := h
  rw [← handleText_router r c text nowMs]
  unfold handleInboundFrame
  rw [hread]
  dsimp only
  rw [hopcode]

lemma indexed_subscribe {r : InvertedTopicRouter} {c : UInt32} (h : (r.clients.lookup c).isSome)
    (t t' : TopicKey) (c' : UInt32) :
    (r.subscribe c t).2.Indexed t' c' ↔
      r.Indexed t' c' ∨ t' = t ∧ c' = c ∧ c.toNat < maxClientCapacity := by
  obtain ⟨session, hlookup⟩ := Option.isSome_iff_exists.mp h
  unfold InvertedTopicRouter.subscribe markSubscribed
  rw [hlookup]
  exact indexed_insertIntoTopic _ c c' t t'

/-- The bits of the client after the two frames. -/
lemma indexed_afterFrames {r : InvertedTopicRouter} {c : UInt32} (hc : (r.clients.lookup c).isSome)
    (hcap : c.toNat < maxClientCapacity) {fields : CommandFields}
    {subscribeFrame unsubscribeFrame : List UInt8}
    (hsubscribe : CarriesText subscribeFrame (commandText "subscribe" fields))
    (hunsubscribe : CarriesText unsubscribeFrame (commandText "unsubscribe" fields))
    (nowMs nowMs' : UInt64) (t : TopicKey) :
    (afterFrames r c subscribeFrame unsubscribeFrame nowMs nowMs').Indexed t c ↔
      (r.Indexed t c ∨ t = fields.topic fields.flags.value) ∧ t ≠ fields.topic 0 := by
  have hops : EngineOp.textOps c (commandText "subscribe" fields)
      = [.subscribe c (fields.topic fields.flags.value)] := by
    rw [EngineOp.textOps, parse_subscribe]
  have hops' : EngineOp.textOps c (commandText "unsubscribe" fields)
      = [.unsubscribe c (fields.topic 0)] := by
    rw [EngineOp.textOps, parse_unsubscribe]
  unfold afterFrames
  rw [router_handleInboundFrame hunsubscribe, router_handleInboundFrame hsubscribe, hops, hops']
  show ((r.subscribe c _).2.unsubscribe c _).2.Indexed t c ↔ _
  rw [indexed_unsubscribe, indexed_subscribe hc]
  simp only [hcap, and_true]

/-- The flags of a topic count. -/
lemma topic_eq_iff (fields : CommandFields) :
    fields.topic fields.flags.value = fields.topic 0 ↔ fields.flags.value = 0 := by
  have hlt : fields.flags.value < 2 ^ 24 := fields.flags.lt
  have hzero : (UInt64.ofNat 0).toUInt32.toNat % 2 ^ 24 = 0 := rfl
  unfold CommandFields.topic
  rw [TopicKey.new_eq_iff, toNat_market fields.flags.value, hzero, Nat.mod_eq_of_lt hlt]
  simp only [true_and]

/-- No topic has the client that did not have it before the two frames. -/
def Undone (r : InvertedTopicRouter) (c : UInt32) (subscribeFrame unsubscribeFrame : List UInt8)
    (nowMs nowMs' : UInt64) : Prop :=
  ∀ t, (afterFrames r c subscribeFrame unsubscribeFrame nowMs nowMs').Indexed t c → r.Indexed t c

/-- An unsubscribe command undoes the subscribe command with the same numbers exactly when there
are no flags, or when the client was subscribed to the topic before. -/
theorem unsubscribe_undoes_iff {r : InvertedTopicRouter} {c : UInt32}
    (hc : (r.clients.lookup c).isSome) (hcap : c.toNat < 1024) (fields : CommandFields)
    {subscribeFrame unsubscribeFrame : List UInt8}
    (hsubscribe : CarriesText subscribeFrame (commandText "subscribe" fields))
    (hunsubscribe : CarriesText unsubscribeFrame (commandText "unsubscribe" fields))
    (nowMs nowMs' : UInt64) :
    Undone r c subscribeFrame unsubscribeFrame nowMs nowMs' ↔
      fields.flags.value = 0 ∨ r.Indexed (fields.topic fields.flags.value) c := by
  have hindexed := indexed_afterFrames hc hcap hsubscribe hunsubscribe nowMs nowMs'
  unfold Undone
  simp only [hindexed]
  constructor
  · intro h
    by_cases hzero : fields.flags.value = 0
    · exact .inl hzero
    · -- the topic with the flags is not the one that the unsubscribe command names
      refine .inr (h _ ⟨.inr rfl, ?_⟩)
      exact mt (topic_eq_iff fields).mp hzero
  · rintro hcond t ⟨hbefore | rfl, hne⟩
    · exact hbefore
    · rcases hcond with hzero | hbefore
      · exact absurd ((topic_eq_iff fields).mpr hzero) hne
      · exact hbefore

/-- Venue 1, market 42, stream 1 and the given flags. -/
def fieldsWithFlags (flags : Numeral (2 ^ 24)) : CommandFields where
  venue := ⟨ofString "1", by decide, List.all_eq_true.mp rfl, by decide⟩
  marketId := ⟨ofString "42", by decide, List.all_eq_true.mp rfl, by decide⟩
  streamType := ⟨ofString "1", by decide, List.all_eq_true.mp rfl, by decide⟩
  flags := flags

/-- Flags 0. -/
def plainFields : CommandFields :=
  fieldsWithFlags ⟨ofString "0", by decide, List.all_eq_true.mp rfl, by decide⟩

/-- Flags 1. -/
def flaggedFields : CommandFields :=
  fieldsWithFlags ⟨ofString "1", by decide, List.all_eq_true.mp rfl, by decide⟩

/-- A router with client 10. -/
def connectedRouter : InvertedTopicRouter :=
  (handleClientConnect .new 10 .sbe 1000 10 0).2

lemma carriesText_plain (action : String) (h : action = "subscribe" ∨ action = "unsubscribe") :
    CarriesText (wsFrame .text (commandText action plainFields))
      (commandText action plainFields) := by
  rcases h with rfl | rfl
  · exact ⟨textHeader 73, by decide +kernel, rfl⟩
  · exact ⟨textHeader 75, by decide +kernel, rfl⟩

theorem unsubscribe_undoes_plain :
    Undone connectedRouter 10 (wsFrame .text (commandText "subscribe" plainFields))
      (wsFrame .text (commandText "unsubscribe" plainFields)) 0 0 :=
  (unsubscribe_undoes_iff (by decide +kernel) (by decide) plainFields
    (carriesText_plain "subscribe" (.inl rfl)) (carriesText_plain "unsubscribe" (.inr rfl))
    0 0).mpr (.inl (by decide))

/-- With flags 1 the client stays subscribed. -/
theorem flags_outlive_unsubscribe :
    (connectedRouter.clients.lookup 10).isSome ∧
    CarriesText (wsFrame .text (commandText "subscribe" flaggedFields))
      (commandText "subscribe" flaggedFields) ∧
    CarriesText (wsFrame .text (commandText "unsubscribe" flaggedFields))
      (commandText "unsubscribe" flaggedFields) ∧
    ¬ Undone connectedRouter 10 (wsFrame .text (commandText "subscribe" flaggedFields))
      (wsFrame .text (commandText "unsubscribe" flaggedFields)) 0 0 := by
  refine ⟨by decide +kernel, ⟨textHeader 73, by decide +kernel, rfl⟩,
    ⟨textHeader 75, by decide +kernel, rfl⟩, ?_⟩
  intro hundone
  have hbefore : ¬ connectedRouter.Indexed (.new 1 42 1 1) 10 := by decide +kernel
  exact hbefore (hundone (.new 1 42 1 1) (by decide +kernel))

end WebSocket
end ChainMarketPrice.Distribution
