import ChainMarketPrice.Distribution.FrameAccess
import ChainMarketPrice.Distribution.FastJsonTheorems

/-!
# Accesses that are always in range

One lemma for each function on the path of an inbound frame: whatever the bytes are, decoding
the header, removing the mask, reading a command and writing a response stay in range, as long
as the length of a payload that is sent back fits 64 bits together with its header.
-/

namespace ChainMarketPrice.Distribution
namespace WebSocket

open Access Bytes FastJson

/-! ## Headers -/

lemma lengthAccesses_inRange (n : ℕ) (lenByte : UInt8) : AllInRange (lengthAccesses n lenByte) := by
  unfold lengthAccesses
  split
  · split
    · simp
    · simp [InRange]
      omega
  split
  · split
    · simp
    · rw [allInRange_cons]
      refine ⟨by simp [InRange], allInRange_map fun i hi => ?_⟩
      rw [List.mem_range] at hi
      simp only [InRange]
      omega
  · simp

/-- What the length field says, and how long the header is up to there. -/
lemma decodePayloadLen_ok {buf : List UInt8} {lenByte : UInt8} {payloadLen headerLen : ℕ}
    (h : decodePayloadLen buf lenByte = .ok (payloadLen, headerLen)) :
    headerLen = 2 ∧ payloadLen = lenByte.toNat ∧ lenByte ≠ 127 ∨
      headerLen = 4 ∧ payloadLen = ofBe ((buf.drop 2).take 2) ∧ lenByte ≠ 127 ∨
      headerLen = 10 ∧ payloadLen = ofBe ((buf.drop 2).take 8) ∧ lenByte = 127 ∧
        10 ≤ buf.length := by
  unfold decodePayloadLen at h
  split at h
  · next h126 =>
    split at h
    · cases h
    · cases h
      refine Or.inr (Or.inl ⟨rfl, rfl, ?_⟩)
      rw [h126]
      decide
  split at h
  · next h127 =>
    split at h
    · cases h
    · next hlen =>
      cases h
      exact Or.inr (Or.inr ⟨rfl, rfl, h127, Nat.le_of_not_lt hlen⟩)
  · next h127 =>
    cases h
    exact Or.inl ⟨rfl, rfl, h127⟩

/-- The bounds of both results. Only the 64-bit field goes beyond 16 bits. -/
lemma decodePayloadLen_bounds {buf : List UInt8} {b1 : UInt8} {payloadLen headerLen : ℕ}
    (h : decodePayloadLen buf (b1 &&& 0x7F) = .ok (payloadLen, headerLen)) :
    headerLen ≤ 10 ∧ payloadLen < 2 ^ 64 ∧ (headerLen = 10 ∨ payloadLen ≤ 0xFFFF) := by
  have hbyte := (b1 &&& 0x7F).toNat_lt
  have hshort := ofBe_lt ((buf.drop 2).take 2)
  have hlong := ofBe_lt ((buf.drop 2).take 8)
  have hwidth : 256 ^ ((buf.drop 2).take 2).length ≤ 256 ^ 2 :=
    Nat.pow_le_pow_right (by decide) (List.length_take_le _ _)
  have hwidth' : 256 ^ ((buf.drop 2).take 8).length ≤ 256 ^ 8 :=
    Nat.pow_le_pow_right (by decide) (List.length_take_le _ _)
  rcases decodePayloadLen_ok h with ⟨h1, h2, _⟩ | ⟨h1, h2, _⟩ | ⟨h1, h2, _⟩
  · omega
  · omega
  · omega

lemma maskKeyAccesses_inRange {n headerLen : ℕ} (h : headerLen ≤ 10) :
    AllInRange (maskKeyAccesses n headerLen) := by
  unfold maskKeyAccesses
  rw [allInRange_cons]
  refine ⟨by simp only [InRange]; omega, ?_⟩
  split
  · simp
  · next hlen =>
    simp only [allInRange_cons, allInRange_nil, InRange, and_true]
    refine ⟨?_, ?_, trivial, ?_⟩
    · omega
    · omega
    · omega

lemma decodeAccesses_inRange (buf : List UInt8) : AllInRange (decodeAccesses buf) := by
  unfold decodeAccesses
  split
  · next b0 b1 rest =>
    rw [allInRange_cons]
    refine ⟨by simp [InRange], ?_⟩
    split
    · simp
    · rw [allInRange_append, allInRange_cons]
      refine ⟨⟨by simp [InRange], lengthAccesses_inRange _ _⟩, ?_⟩
      split
      · simp
      · next payloadLen headerLen hlen =>
        split
        · exact maskKeyAccesses_inRange (decodePayloadLen_bounds hlen).1
        · simp
  · simp

/-! ## Payloads -/

lemma unmaskAccesses_inRange {n : ℕ} (h : n < 2 ^ 64) : AllInRange (unmaskAccesses n) := by
  unfold unmaskAccesses
  dsimp only
  rw [allInRange_append, allInRange_cons]
  refine ⟨allInRange_flatMap fun _ _ => by simp [InRange], Nat.mod_le _ _,
    allInRange_flatMap fun i hi => ?_⟩
  rw [List.mem_range] at hi
  simp only [allInRange_cons, allInRange_nil, InRange, and_true]
  omega

/-! ## Responses -/

lemma outHeaderLen_cases (payloadLen : ℕ) :
    payloadLen < 126 ∧ outHeaderLen payloadLen = 2 ∨
      126 ≤ payloadLen ∧ payloadLen ≤ 0xFFFF ∧ outHeaderLen payloadLen = 4 ∨
      0xFFFF < payloadLen ∧ outHeaderLen payloadLen = 10 := by
  unfold outHeaderLen
  split
  · omega
  split
  · omega
  · omega

lemma encodeAccesses_inRange {payloadLen : ℕ} (capacity : ℕ)
    (h : outHeaderLen payloadLen + payloadLen < 2 ^ 64) :
    AllInRange (encodeAccesses payloadLen capacity) := by
  unfold encodeAccesses
  dsimp only
  rw [allInRange_cons]
  refine ⟨h, ?_⟩
  split
  · simp
  · next hfits =>
    have hlen := outHeaderLen_cases payloadLen
    rw [allInRange_append, allInRange_append]
    refine ⟨⟨?_, ?_⟩, ?_⟩
    · simp only [allInRange_cons, allInRange_nil, InRange, and_true]
      omega
    · split
      · simp
      split
      · simp only [allInRange_cons, allInRange_nil, InRange, and_true]
        omega
      · simp only [allInRange_cons, allInRange_nil, InRange, and_true]
        omega
    · simp only [allInRange_cons, allInRange_nil, InRange, and_true]
      omega

lemma respondAccesses_inRange {payload : List UInt8} (capacity : ℕ)
    (h : outHeaderLen payload.length + payload.length < 2 ^ 64) :
    AllInRange (respondAccesses payload capacity) := by
  unfold respondAccesses
  rw [allInRange_append]
  refine ⟨encodeAccesses_inRange capacity h, ?_⟩
  split
  · simp
  · simp only [allInRange_cons, allInRange_nil, InRange, and_true]
    omega

/-! ## The JSON writer -/

/-- A write keeps the buffer's length, and the cursor inside the buffer. -/
def Keeps (write : JsonM Unit) : Prop :=
  ∀ w : FastJsonWriter, w.pos ≤ w.buf.length →
    (ignoreError write w).buf.length = w.buf.length ∧
      (ignoreError write w).pos ≤ (ignoreError write w).buf.length

lemma keeps_writeByte (b : UInt8) : Keeps (FastJsonWriter.writeByte b) := by
  intro w hw
  unfold ignoreError FastJsonWriter.writeByte
  by_cases hfull : w.pos ≥ w.buf.length
  · rw [if_pos hfull]
    exact ⟨rfl, hw⟩
  · rw [if_neg hfull]
    dsimp only
    rw [List.length_set]
    omega

lemma keeps_writeBytes (bytes : List UInt8) : Keeps (FastJsonWriter.writeBytes bytes) := by
  intro w hw
  unfold ignoreError FastJsonWriter.writeBytes
  dsimp only
  by_cases hfull : w.pos + bytes.length > w.buf.length
  · rw [if_pos hfull]
    exact ⟨rfl, hw⟩
  · rw [if_neg hfull]
    dsimp only
    rw [length_copyAt (by omega)]
    omega

lemma keeps_writeU64 (val : UInt64) : Keeps (FastJsonWriter.writeU64 val) := by
  unfold FastJsonWriter.writeU64
  split
  · exact keeps_writeByte _
  · exact keeps_writeBytes _

lemma writeByteAccesses_inRange {w : FastJsonWriter} (hpos : w.pos < 2 ^ 32) :
    AllInRange (writeByteAccesses w) := by
  unfold writeByteAccesses
  split
  · simp only [allInRange_cons, allInRange_nil, InRange, and_true]
    omega
  · simp only [allInRange_cons, allInRange_nil, InRange, and_true]
    omega

lemma writeBytesAccesses_inRange {w : FastJsonWriter} {bytes : List UInt8} (hpos : w.pos < 2 ^ 32)
    (hbytes : bytes.length < 2 ^ 32) : AllInRange (writeBytesAccesses w bytes) := by
  unfold writeBytesAccesses
  dsimp only
  rw [allInRange_cons]
  refine ⟨by simp only [InRange]; omega, ?_⟩
  split
  · simp
  · simp only [allInRange_cons, allInRange_nil, InRange, and_true]
    omega

lemma pairAccesses_inRange {idx rem : ℕ} (hidx : 2 ≤ idx ∧ idx ≤ 20) (hrem : rem < 100) :
    AllInRange (pairAccesses idx rem) := by
  unfold pairAccesses
  simp only [allInRange_cons, allInRange_nil, InRange, and_true]
  omega

/-- Each turn of the loop takes two digits and two places of the scratch buffer. -/
lemma digitAccesses_inRange {fuel val idx : ℕ} (hpos : 0 < val) (hval : val < 100 ^ fuel)
    (hidx : idx = 2 * fuel) (hfuel : fuel ≤ 10) : AllInRange (digitAccesses fuel val idx) := by
  -- with room for `fuel` pairs, a number of at most `2 * fuel` digits
  induction fuel generalizing val idx with
  | zero =>
    rw [Nat.pow_zero] at hval
    omega
  | succ fuel ih =>
    rw [digitAccesses]
    split
    · rw [allInRange_append]
      refine ⟨pairAccesses_inRange (by omega) (Nat.mod_lt _ (by decide)), ?_⟩
      apply ih
      · omega
      · rw [Nat.pow_succ] at hval
        omega
      · omega
      · omega
    split
    · simp only [allInRange_cons, allInRange_nil, InRange, and_true]
      omega
    · rw [allInRange_append]
      refine ⟨pairAccesses_inRange (by omega) (by omega), ?_⟩
      simp only [allInRange_cons, allInRange_nil, InRange, and_true]
      omega

lemma writeU64Accesses_inRange {w : FastJsonWriter} {val : UInt64} (hpos : w.pos < 2 ^ 32) :
    AllInRange (writeU64Accesses w val) := by
  unfold writeU64Accesses
  split
  · exact writeByteAccesses_inRange hpos
  · next hval =>
    have hlt := val.toNat_lt
    have hne : val.toNat ≠ 0 := fun h0 => hval (UInt64.toNat.inj h0)
    have hlen := length_u64Digits_le val
    rw [allInRange_append]
    exact ⟨digitAccesses_inRange (by omega) (by omega) rfl (by decide),
      writeBytesAccesses_inRange hpos (by omega)⟩

lemma jsonMessageAccesses_inRange {capacity : ℕ} {head : String} (value : UInt64)
    (hcapacity : capacity < 2 ^ 32) (hhead : (ofString head).length < 2 ^ 32) :
    AllInRange (jsonMessageAccesses capacity head value) := by
  unfold jsonMessageAccesses
  dsimp only
  have hlen0 : (FastJsonWriter.new (List.replicate capacity 0)).buf.length = capacity :=
    List.length_replicate
  have hpos0 : (FastJsonWriter.new (List.replicate capacity 0)).pos = 0 := rfl
  generalize FastJsonWriter.new (List.replicate capacity 0) = w0 at hlen0 hpos0 ⊢
  have hw1 := keeps_writeBytes (ofString head) w0 (by omega)
  have hw2 := keeps_writeU64 value _ hw1.2
  have hw3 := keeps_writeBytes (ofString "\x7d") _ hw2.2
  have htail : (ofString "\x7d").length < 2 ^ 32 := by decide
  rw [← FastJsonWriter.writeStr] at hw1 hw2 hw3
  rw [← FastJsonWriter.writeStr] at hw3
  rw [allInRange_append, allInRange_append, allInRange_append]
  refine ⟨⟨⟨?_, ?_⟩, ?_⟩, ?_⟩
  · exact writeBytesAccesses_inRange (by omega) hhead
  · exact writeU64Accesses_inRange (by omega)
  · exact writeBytesAccesses_inRange (by omega) htail
  · simp only [allInRange_cons, allInRange_nil, InRange, and_true]
    omega

/-! ## Commands -/

/-- The names of the numbers of a command: the two patterns of such a name are not empty, and
both begin with as many ASCII bytes as the first has. -/
def AsciiKey (key : String) : Prop :=
  pattern1 key ≠ [] ∧ (pattern1 key).length ≤ (pattern2 key).length ∧
    (pattern1 key).all (· < 0x80) = true ∧ (pattern2 key).all (· < 0x80) = true

/-- Behind the first bytes of a pattern that stands in the text it may be cut. -/
lemma isCharBoundary_in_pattern {s pattern before after : List UInt8} {n : ℕ}
    (hs : Text.isUtf8 s = true) (htext : s = before ++ (pattern ++ after)) (hn : 0 < n)
    (hpattern : n ≤ pattern.length) (hascii : pattern.all (· < 0x80) = true) :
    Text.isCharBoundary s (before.length + n) = true := by
  obtain ⟨k, rfl⟩ := Nat.exists_eq_succ_of_ne_zero (Nat.ne_of_gt hn)
  have hk : k < pattern.length := hpattern
  have hcut : s = (before ++ pattern.take k) ++ pattern[k] :: (pattern.drop (k + 1) ++ after) := by
    rw [htext, List.append_assoc, ← List.cons_append, ← List.drop_eq_getElem_cons hk,
      ← List.append_assoc (pattern.take k), List.take_append_drop]
  have hb : pattern[k] < 0x80 :=
    of_decide_eq_true (List.all_eq_true.mp hascii _ (List.getElem_mem hk))
  have hboundary := Text.isCharBoundary_after_ascii hs hcut hb
  rwa [List.length_append, List.length_take, Nat.min_eq_left (Nat.le_of_lt hk),
    Nat.add_assoc] at hboundary

/-- Wherever one of the patterns is found, the text goes on behind the first. -/
lemma start_of_found {s : List UInt8} {key : String} (hs : Text.isUtf8 s = true)
    (hkey : AsciiKey key) {pos : ℕ}
    (h : (Text.find (pattern1 key) s).or (Text.find (pattern2 key) s) = some pos) :
    pos + (pattern1 key).length ≤ s.length ∧
      Text.isCharBoundary s (pos + (pattern1 key).length) = true := by
  obtain ⟨hne, hle, hascii1, hascii2⟩ := hkey
  have hpos := List.length_pos_iff.mpr hne
  rcases Option.or_eq_some_iff.mp h with hfound | ⟨_, hfound⟩
  · obtain ⟨before, after, htext, rfl⟩ := Text.find_eq_some hfound
    refine ⟨?_, isCharBoundary_in_pattern hs htext hpos (Nat.le_refl _) hascii1⟩
    rw [htext, List.length_append, List.length_append]
    omega
  · obtain ⟨before, after, htext, rfl⟩ := Text.find_eq_some hfound
    refine ⟨?_, isCharBoundary_in_pattern hs htext hpos hle hascii2⟩
    rw [htext, List.length_append, List.length_append]
    omega

lemma extractAccesses_inRange {s : List UInt8} {key : String} (hs : Text.isUtf8 s = true)
    (hlen : s.length < 2 ^ 64) (hkey : AsciiKey key) : AllInRange (extractAccesses s key) := by
  unfold extractAccesses
  split
  · simp
  · next pos hfound =>
    obtain ⟨hstart, hboundary⟩ := start_of_found hs hkey hfound
    dsimp only
    -- the slices behind the key are suffixes of the payload
    have hrest : Text.trimStart (s.drop (pos + (pattern1 key).length)) <:+ s :=
      (Text.trimStart_isSuffix _).trans (List.drop_suffix _ _)
    generalize Text.trimStart (s.drop (pos + (pattern1 key).length)) = slice at hrest ⊢
    have hdigits : (slice.takeWhile Text.isDigit).length ≤ slice.length :=
      (List.takeWhile_prefix _).length_le
    have hslice := hrest.length_le
    rw [allInRange_append, allInRange_append]
    refine ⟨⟨?_, ?_⟩, ?_⟩
    · simp only [allInRange_cons, allInRange_nil, InRange, and_true]
      exact ⟨by omega, ⟨hstart, Nat.le_refl _⟩, hboundary⟩
    · apply allInRange_map
      intro i hi
      rw [List.mem_range] at hi
      simp only [InRange]
      omega
    · split
      · simp
      · next hsome =>
        simp only [allInRange_cons, allInRange_nil, InRange, and_true]
        refine ⟨⟨Nat.zero_le _, hdigits⟩, Text.isCharBoundary_after_digits hs hrest ?_⟩
        simpa using hsome

lemma fieldAccesses_inRange {s : List UInt8} {keys : List String} (hs : Text.isUtf8 s = true)
    (hlen : s.length < 2 ^ 64) (hkeys : ∀ key ∈ keys, AsciiKey key) :
    AllInRange (fieldAccesses s keys) := by
  induction keys with
  | nil => simp [fieldAccesses]
  | cons key keys ih =>
    rw [fieldAccesses, allInRange_append]
    refine ⟨extractAccesses_inRange hs hlen (hkeys key List.mem_cons_self), ?_⟩
    split
    · simp
    · exact ih fun key' hkey' => hkeys key' (List.mem_cons_of_mem _ hkey')

lemma asciiKey_fields {key : String} (h : key ∈ ["venue", "market_id", "stream_type", "flags"]) :
    AsciiKey key := by
  unfold AsciiKey
  simp only [List.mem_cons, List.not_mem_nil, or_false] at h
  rcases h with rfl | rfl | rfl | rfl
  · decide
  · decide
  · decide
  · decide

lemma commandAccesses_inRange {s : List UInt8} (hlen : s.length < 2 ^ 64) :
    AllInRange (commandAccesses s) := by
  unfold commandAccesses
  split
  · simp
  · next hs =>
    have hutf8 : Text.isUtf8 s = true := by simpa using hs
    split
    · simp
    split
    · exact fieldAccesses_inRange hutf8 hlen fun key hkey => asciiKey_fields hkey
    split
    · apply fieldAccesses_inRange hutf8 hlen
      intro key hkey
      apply asciiKey_fields
      simp only [List.mem_cons, List.not_mem_nil, or_false] at hkey ⊢
      tauto
    · simp

end WebSocket
end ChainMarketPrice.Distribution
