import ChainMarketPrice.Distribution.ShmInterleaving

/-!
# Torn reads of the shared-memory ring

The writer stores a message's payload before its sequence number, so while it laps the
reader by exactly one capacity the slot still carries the old sequence number over new
payload, and the reader's check accepts the mixture (`torn_read_accepted`). `LapSafe` says
what a load needs: the field it copies has not been overwritten, or the sequence check is
bound to fail. Besides, a publish begins only where its number is a new one. Runs that keep
this return exactly what was published (`reads_exact`), and a load that breaks it can be completed to an accepted read that holds the overwritten field
(`accepted_of_not_lapSafe`).
-/

namespace ChainMarketPrice.Distribution
namespace ShmInterleaving

open RingWindow

variable {k : ℕ}

/-! ## Fields -/

namespace Field

/-- Two slots agree on a field. -/
def Agree (a b : ShmMessageSlot) : Field → Prop
  | .sequence => a.sequence = b.sequence
  | .kind => a.kind = b.kind
  | .flags => a.flags = b.flags
  | .venueId => a.venueId = b.venueId
  | .marketId => a.marketId = b.marketId
  | .telemetry => a.telemetry = b.telemetry
  | .price => a.price = b.price
  | .qty => a.qty = b.qty

lemma agree_copy_self (src dst : ShmMessageSlot) (f : Field) : f.Agree (f.copy src dst) src := by
  cases f <;> rfl

lemma agree_copy_of_ne {src dst m : ShmMessageSlot} {f g : Field} (h : g ≠ f)
    (hg : g.Agree dst m) : g.Agree (f.copy src dst) m := by
  cases f <;> cases g <;> first | exact absurd rfl h | exact hg

lemma copy_sequence_of_ne {src dst : ShmMessageSlot} {f : Field} (h : f ≠ .sequence) :
    (f.copy src dst).sequence = dst.sequence := by
  cases f <;> first | exact absurd rfl h | rfl

lemma Agree.trans {a b c : ShmMessageSlot} {f : Field} (hab : f.Agree a b) (hbc : f.Agree b c) :
    f.Agree a c := by
  cases f <;> exact Eq.trans hab hbc

lemma eq_of_agree {a b : ShmMessageSlot} (h : ∀ f : Field, f.Agree a b) : a = b := by
  obtain ⟨sa, ka, fa, va, ma, ta, pa, qa⟩ := a
  obtain ⟨sb, kb, fb, vb, mb, tb, pb, qb⟩ := b
  have h1 := h .sequence
  have h2 := h .kind
  have h3 := h .flags
  have h4 := h .venueId
  have h5 := h .marketId
  have h6 := h .telemetry
  have h7 := h .price
  have h8 := h .qty
  simp only [Agree] at h1 h2 h3 h4 h5 h6 h7 h8
  subst h1 h2 h3 h4 h5 h6 h7 h8
  rfl

lemma mem_all (f : Field) : f ∈ all := by
  cases f <;> decide

lemma mem_storeOrder (f : Field) : f ∈ storeOrder := by
  cases f <;> decide

end Field

/-! ## The condition -/

/-- The publish in progress has stored the field. -/
def WriterPc.Stored (f : Field) : WriterPc → Prop
  | .idle => False
  | .storeFields _ _ todo => f ∉ todo
  | .storeHead _ => True

/-- The field of message `n` has been overwritten by a later message. -/
def Overwritten (s : State k) (n : ℕ) (f : Field) : Prop :=
  n + 2 ^ k ≤ s.ring.headSequence.toNat ∨
    n + 2 ^ k = s.ring.headSequence.toNat + 1 ∧ s.writer.Stored f

/-- The sequence check of a read in progress cannot succeed any more. -/
def CheckFails (s : State k) (readerCursor : UInt64) (out : ShmMessageSlot) (todo : List Field) :
    Prop :=
  if .sequence ∈ todo then (s.slot (readerCursor + 1).toNat).sequence ≠ readerCursor + 1
  else out.sequence ≠ readerCursor + 1

/-- The condition on a publish that begins and on a load of a payload field; every other access
is unrestricted. -/
def LapSafe (s : State k) : Action → Prop
  | .callPublishBbo _ _ | .callPublishTrade _ _ => s.ring.headSequence.toNat + 1 < 2 ^ 64
  | .load f =>
    match s.reader with
    | .idle => True
    | .copySlot _ readerCursor out todo =>
      f ≠ .sequence → Overwritten s (readerCursor + 1).toNat f →
        CheckFails s readerCursor out todo
  | _ => True

instance decidableStored (f : Field) : ∀ w : WriterPc, Decidable (w.Stored f)
  | .idle => .isFalse id
  | .storeFields _ _ todo => inferInstanceAs (Decidable (f ∉ todo))
  | .storeHead _ => .isTrue trivial

instance decidableOverwritten (s : State k) (n : ℕ) (f : Field) : Decidable (Overwritten s n f) :=
  inferInstanceAs (Decidable (_ ∨ _))

instance decidableCheckFails (s : State k) (readerCursor : UInt64) (out : ShmMessageSlot)
    (todo : List Field) : Decidable (CheckFails s readerCursor out todo) :=
  inferInstanceAs (Decidable (ite _ _ _))

instance decidableLapSafe (s : State k) : ∀ a, Decidable (LapSafe s a)
  | .load f =>
    match h : s.reader with
    | .idle => .isTrue (by simp [LapSafe, h])
    | .copySlot _ readerCursor out todo =>
      decidable_of_iff
        (f ≠ .sequence → Overwritten s (readerCursor + 1).toNat f →
          CheckFails s readerCursor out todo)
        (by simp [LapSafe, h])
  | .callPublishBbo _ _ | .callPublishTrade _ _ =>
    inferInstanceAs (Decidable (s.ring.headSequence.toNat + 1 < 2 ^ 64))
  | .write | .callTryRead _ _ | .check => .isTrue trivial

/-- Every read that returned `Ok` returned the message published under its number. -/
def ReadsExact (s : State k) : Prop :=
  ∀ e ∈ s.returned, e.status = .ok → s.published[e.cursor.toNat]? = some e.out

instance decidableReadsExact (s : State k) : Decidable (ReadsExact s) :=
  inferInstanceAs (Decidable (∀ e ∈ s.returned, _))

/-- Copying a payload field does not change what the check will find. -/
lemma checkFails_copy_iff {s : State k} {cursor : UInt64} {src out : ShmMessageSlot}
    {todo : List Field} {f : Field} (hf : f ≠ .sequence) :
    CheckFails s cursor (f.copy src out) (todo.filter (· ≠ f)) ↔ CheckFails s cursor out todo := by
  have hmem : Field.sequence ∈ todo.filter (· ≠ f) ↔ Field.sequence ∈ todo := by
    simp [List.mem_filter, hf.symm]
  unfold CheckFails
  simp only [hmem, Field.copy_sequence_of_ne hf]

/-! ## The invariant -/

/-- What the writer's locals mean: the fields it has stored are in the slot. -/
def WriterOk (s : State k) : Prop :=
  match s.writer with
  | .idle => True
  | .storeFields msg _ todo =>
    msg.sequence.toNat = s.ring.headSequence.toNat + 1 ∧ todo.Nodup ∧
      ∀ f ∉ todo, f.Agree (s.slot msg.sequence.toNat) msg
  | .storeHead msg =>
    msg.sequence.toNat = s.ring.headSequence.toNat + 1 ∧
      ∀ f : Field, f.Agree (s.slot msg.sequence.toNat) msg

/-- What the reader has copied so far is the message, or the check is going to fail. -/
def ReaderOk (s : State k) : Prop :=
  match s.reader with
  | .idle => True
  | .copySlot _ readerCursor out todo =>
    ∃ m, s.published[readerCursor.toNat]? = some m ∧
      (CheckFails s readerCursor out todo ∨ ∀ f ∉ todo, f.Agree out m)

structure Inv (s : State k) : Prop where
  head_eq : s.ring.headSequence.toNat = s.published.length
  numbered : ∀ i m, s.published[i]? = some m → m.sequence.toNat = i + 1
  writer : WriterOk s
  resident : ∀ i m f, s.published[i]? = some m → ¬ Overwritten s (i + 1) f →
    f.Agree (s.slot (i + 1)) m
  reader : ReaderOk s
  exact : ReadsExact s

lemma inv_init (k : ℕ) : Inv (machine k).init := by
  refine ⟨rfl, ?_, trivial, ?_, trivial, ?_⟩
  · intro i m hm
    simp [machine] at hm
  · intro i m f hm
    simp [machine] at hm
  · intro e he
    simp [machine] at he

/-! ## One access of the writer -/

/-- Two numbers share a slot only if they are a whole lap apart. -/
lemma lap_of_slotOf_eq {i n : ℕ} (hi : i < n) (hslot : slotOf k i = slotOf k n) :
    i + 2 ^ k ≤ n := by
  by_contra hlt
  exact slotOf_ne hi (by omega) hslot

lemma storeField_slots_of_eq {r : ShmRing k} {msg : ShmMessageSlot} {n : ℕ} (f : Field)
    (h : slotOf k n = slotOf k msg.sequence.toNat) :
    (storeField r msg f).slots (slotOf k n) = f.copy msg (r.slots (slotOf k n)) := by
  rw [h]
  exact Function.update_self _ _ _

lemma storeField_slots_of_ne {r : ShmRing k} {msg : ShmMessageSlot} {n : ℕ} (f : Field)
    (h : slotOf k n ≠ slotOf k msg.sequence.toNat) :
    (storeField r msg f).slots (slotOf k n) = r.slots (slotOf k n) :=
  Function.update_of_ne h _ _

/-- A store brings no old number back into a slot. -/
lemma storeField_sequence_ne {r : ShmRing k} {msg : ShmMessageSlot} {n : UInt64} (f : Field)
    (hn : n < msg.sequence) (h : (r.slots (slotOf k n.toNat)).sequence ≠ n) :
    ((storeField r msg f).slots (slotOf k n.toNat)).sequence ≠ n := by
  by_cases hslot : slotOf k n.toNat = slotOf k msg.sequence.toNat
  · rw [storeField_slots_of_eq f hslot]
    by_cases hf : f = .sequence
    · rw [hf]
      exact (UInt64.ne_of_lt hn).symm
    · rw [Field.copy_sequence_of_ne hf]
      exact h
  · rw [storeField_slots_of_ne f hslot]
    exact h

/-- The reader does not notice an access of the writer that brings no old number back and
keeps what was published. -/
lemma ReaderOk.mono {s s' : State k} (h : ReaderOk s) (hreader : s'.reader = s.reader)
    (hpub : s.published <+: s'.published)
    (hseq : ∀ n : UInt64, n.toNat ≤ s.published.length → (s.slot n.toNat).sequence ≠ n →
      (s'.slot n.toNat).sequence ≠ n) :
    ReaderOk s' := by
  unfold ReaderOk at h ⊢
  rw [hreader]
  rcases hpc : s.reader with _ | ⟨head, cursor, out, todo⟩
  · trivial
  · simp only [hpc] at h
    obtain ⟨m, hm, hcheck⟩ := h
    have hlt : cursor.toNat < s.published.length := (List.getElem?_eq_some_iff.mp hm).1
    have hnext : (cursor + 1).toNat ≤ cursor.toNat + 1 := by
      rw [UInt64.toNat_add]
      exact Nat.mod_le _ _
    refine ⟨m, getElem?_of_prefix hm hpub, hcheck.imp_left ?_⟩
    intro hfail
    unfold CheckFails at hfail ⊢
    split
    · rw [if_pos (by assumption)] at hfail
      exact hseq _ (hnext.trans hlt) hfail
    · rw [if_neg (by assumption)] at hfail
      exact hfail

/-- Entering a publish stores nothing. -/
lemma callPublish_inv {s s' : State k} {slot : UInt64 → ShmMessageSlot} {nowNs : UInt64}
    (h : Inv s) (hroom : s.ring.headSequence.toNat + 1 < 2 ^ 64)
    (hslot : ∀ n, (slot n).sequence = n) (hs : callPublish s slot nowNs = some s') : Inv s' := by
  unfold callPublish at hs
  split at hs
  · rename_i hidle
    cases hs
    have hnext := (congrArg UInt64.toNat (hslot (s.ring.headSequence + 1))).trans (toNat_succ hroom)
    refine ⟨h.head_eq, h.numbered, ⟨hnext, by decide, ?_⟩, ?_, h.reader, h.exact⟩
    · exact fun f hf => absurd (Field.mem_storeOrder f) hf
    · intro i m f hm hnot
      refine h.resident i m f hm ?_
      rintro (hlap | ⟨-, hst⟩)
      · exact hnot (.inl hlap)
      · rcases hpc : s.writer with _ | _ | _
        · rw [hpc] at hst
          exact hst
        all_goals simp [hpc] at hidle
  · cases hs

/-- A store of one field of the next message. -/
lemma storeField_inv {s : State k} {msg : ShmMessageSlot} {nowNs : UInt64} {f : Field}
    {todo : List Field} (h : Inv s) (hpc : s.writer = .storeFields msg nowNs (f :: todo)) :
    Inv { s with
      ring := storeField s.ring msg f
      writer := .storeFields msg nowNs todo } := by
  have hw := h.writer
  simp only [WriterOk, hpc] at hw
  obtain ⟨hseq, hnodup, hstored⟩ := hw
  obtain ⟨hf, hnodup'⟩ := List.nodup_cons.mp hnodup
  have hhead := h.head_eq
  refine ⟨h.head_eq, h.numbered, ⟨hseq, hnodup', ?_⟩, ?_, ?_, h.exact⟩
  · intro g hg
    rw [State.slot, storeField_slots_of_eq f rfl]
    by_cases hgf : g = f
    · rw [hgf]
      exact Field.agree_copy_self _ _ _
    · refine Field.agree_copy_of_ne hgf (hstored g ?_)
      simp [hgf, hg]
  · intro i m g hm hnot
    have hilt : i < s.published.length := (List.getElem?_eq_some_iff.mp hm).1
    have hnot' : ¬ Overwritten s (i + 1) g := by
      rintro (hlap | ⟨hlap, hst⟩)
      · exact hnot (.inl hlap)
      · refine hnot (.inr ⟨hlap, ?_⟩)
        rw [hpc] at hst
        exact fun hmem => hst (List.mem_cons_of_mem _ hmem)
    have hagree := h.resident i m g hm hnot'
    by_cases hslot : slotOf k (i + 1) = slotOf k msg.sequence.toNat
    · -- the message is one lap behind: its field `g` is still to be overwritten, so `g ≠ f`
      have hlap := lap_of_slotOf_eq (by omega) hslot
      have hexact : i + 1 + 2 ^ k = s.ring.headSequence.toNat + 1 := by
        have hle : ¬ i + 1 + 2 ^ k ≤ s.ring.headSequence.toNat := fun hle => hnot (.inl hle)
        omega
      have hgtodo : g ∈ todo := by
        by_contra hg
        exact hnot (.inr ⟨hexact, hg⟩)
      have hgf : g ≠ f := fun heq => hf (heq ▸ hgtodo)
      rw [State.slot, storeField_slots_of_eq f hslot]
      exact Field.agree_copy_of_ne hgf hagree
    · rw [State.slot, storeField_slots_of_ne f hslot]
      exact hagree
  · refine h.reader.mono rfl (List.prefix_refl _) ?_
    intro n hn hne
    exact storeField_sequence_ne f (UInt64.lt_iff_toNat_lt.mpr (by omega)) hne

/-- The store of the head publishes the message. -/
lemma storeHead_inv {s : State k} {msg : ShmMessageSlot} (h : Inv s)
    (hpc : s.writer = .storeHead msg) :
    Inv { s with
      ring := { s.ring with headSequence := msg.sequence }
      writer := .idle
      published := s.published ++ [msg] } := by
  have hw := h.writer
  simp only [WriterOk, hpc] at hw
  obtain ⟨hseq, hstored⟩ := hw
  have hhead := h.head_eq
  -- an entry of the longer list is an old message or the new one
  have hcases : ∀ i m, (s.published ++ [msg])[i]? = some m →
      s.published[i]? = some m ∨ i = s.published.length ∧ m = msg := by
    intro i m hm
    rcases Nat.lt_or_ge i s.published.length with hlt | hge
    · rw [List.getElem?_append_left hlt] at hm
      exact .inl hm
    · have hi : i = s.published.length := by
        have hbound := (List.getElem?_eq_some_iff.mp hm).1
        rw [List.length_append, List.length_singleton] at hbound
        omega
      rw [hi, List.getElem?_concat_length] at hm
      exact .inr ⟨hi, (Option.some.inj hm).symm⟩
  refine ⟨?_, ?_, trivial, ?_, ?_, ?_⟩
  · simp only [List.length_append, List.length_singleton]
    omega
  · intro i m hm
    rcases hcases i m hm with hold | ⟨hi, hmsg⟩
    · exact h.numbered i m hold
    · rw [hmsg, hi]
      omega
  · intro i m f hm hnot
    rcases hcases i m hm with hold | ⟨hi, hmsg⟩
    · refine h.resident i m f hold ?_
      intro hov
      refine hnot (.inl ?_)
      dsimp only
      rcases hov with hlap | ⟨hlap, -⟩ <;> omega
    · have hnum : i + 1 = msg.sequence.toNat := by omega
      rw [hmsg, hnum]
      exact hstored f
  · exact h.reader.mono rfl (List.prefix_append _ _) fun _ _ hne => hne
  · exact fun e he hok => getElem?_of_prefix (h.exact e he hok) (List.prefix_append _ _)

/-- The store of the heartbeat. -/
lemma storeHeartbeat_inv {s : State k} {msg : ShmMessageSlot} {nowNs : UInt64} (h : Inv s)
    (hpc : s.writer = .storeFields msg nowNs []) :
    Inv { s with
      ring := { s.ring with writerHeartbeatNs := nowNs }
      writer := .storeHead msg } := by
  have hw := h.writer
  simp only [WriterOk, hpc] at hw
  obtain ⟨hseq, -, hstored⟩ := hw
  refine ⟨h.head_eq, h.numbered, ⟨hseq, fun f => hstored f List.not_mem_nil⟩, ?_, h.reader,
    h.exact⟩
  intro i m f hm hnot
  refine h.resident i m f hm ?_
  rintro (hlap | ⟨hlap, -⟩)
  · exact hnot (.inl hlap)
  · exact hnot (.inr ⟨hlap, trivial⟩)

lemma writeStep_inv {s s' : State k} (h : Inv s) (hs : writeStep s = some s') : Inv s' := by
  unfold writeStep at hs
  split at hs
  · cases hs
  · rename_i hpc
    cases hs
    exact storeField_inv h hpc
  · rename_i hpc
    cases hs
    exact storeHeartbeat_inv h hpc
  · rename_i hpc
    cases hs
    exact storeHead_inv h hpc

/-! ## One access of the reader -/

/-- An access of the reader changes only the reader and the completed reads. -/
lemma Inv.reader_step {s : State k} (h : Inv s) {reader : ReaderPc} {returned : List ReadRecord}
    (hreader : ReaderOk { s with reader := reader, returned := returned })
    (hexact : ReadsExact { s with reader := reader, returned := returned }) :
    Inv { s with reader := reader, returned := returned } where
  head_eq := h.head_eq
  numbered := h.numbered
  writer := h.writer
  resident := h.resident
  reader := hreader
  exact := hexact

/-- A return that is not `Ok`, or returns the message. -/
lemma Inv.return {s : State k} (h : Inv s) {cursor : UInt64} {status : ShmReadStatus}
    {out : ShmMessageSlot} (hok : status = .ok → s.published[cursor.toNat]? = some out) :
    Inv (s.return cursor status out) := by
  refine h.reader_step trivial ?_
  intro e he hstatus
  rcases List.mem_append.mp he with he | he
  · exact h.exact e he hstatus
  · rw [List.mem_singleton] at he
    subst he
    exact hok hstatus

lemma callTryRead_inv {s s' : State k} {cursor : UInt64} {out : ShmMessageSlot} (h : Inv s)
    (hs : callTryRead s cursor out = some s') : Inv s' := by
  unfold callTryRead at hs
  dsimp only at hs
  split_ifs at hs with hidle hempty hover
  · cases hs
    exact h.return (by simp)
  · cases hs
    exact h.return (by simp)
  · cases hs
    have hhead := h.head_eq
    have hcursor : cursor.toNat < s.published.length := by
      rw [← hhead]
      exact UInt64.lt_iff_toNat_lt.mp (UInt64.not_le.mp hempty)
    refine h.reader_step ⟨_, List.getElem?_eq_getElem hcursor, .inr ?_⟩ h.exact
    exact fun f hf => absurd (Field.mem_all f) hf

/-- The number after that of a published message is a word. -/
lemma Inv.next {s : State k} (h : Inv s) {cursor : UInt64} {m : ShmMessageSlot}
    (hm : s.published[cursor.toNat]? = some m) : (cursor + 1).toNat = cursor.toNat + 1 := by
  have hlt := (List.getElem?_eq_some_iff.mp hm).1
  rw [← h.head_eq] at hlt
  exact toNat_succ_of_lt hlt

/-- A load of the sequence number: it is the number read for, or the check fails. -/
lemma load_sequence_inv {s : State k} {head cursor : UInt64} {out : ShmMessageSlot}
    {todo : List Field} (h : Inv s) (hpc : s.reader = .copySlot head cursor out todo)
    (hmem : .sequence ∈ todo) :
    ReaderOk { s with
      reader := .copySlot head cursor (Field.sequence.copy (s.slot (cursor + 1).toNat) out)
        (todo.filter (· ≠ .sequence)) } := by
  have hr := h.reader
  simp only [ReaderOk, hpc] at hr
  obtain ⟨m, hm, hcheck⟩ := hr
  refine ⟨m, hm, ?_⟩
  have hnot : Field.sequence ∉ todo.filter (· ≠ .sequence) := by simp
  by_cases hseq : (s.slot (cursor + 1).toNat).sequence = cursor + 1
  · right
    -- a check that could fail before would fail on this number, too
    have hcopied : ∀ f ∉ todo, f.Agree out m := by
      rcases hcheck with hfail | hcopied
      · simp only [CheckFails, hmem, if_true] at hfail
        exact absurd hseq hfail
      · exact hcopied
    intro f hf
    by_cases hfs : f = .sequence
    · rw [hfs]
      show (s.slot (cursor + 1).toNat).sequence = m.sequence
      rw [hseq, ← UInt64.toNat_inj, h.numbered _ m hm, h.next hm]
    · refine Field.agree_copy_of_ne hfs (hcopied f ?_)
      intro hmem'
      exact hf (List.mem_filter.mpr ⟨hmem', by simpa using hfs⟩)
  · left
    rw [CheckFails, if_neg hnot]
    exact hseq

/-- A load of a payload field: under the condition it is the message's, or the check fails. -/
lemma load_payload_inv {s : State k} {head cursor : UInt64} {out : ShmMessageSlot}
    {todo : List Field} {f : Field} (h : Inv s)
    (hpc : s.reader = .copySlot head cursor out todo) (hf : f ≠ .sequence)
    (hok : LapSafe s (.load f)) :
    ReaderOk { s with
      reader := .copySlot head cursor (f.copy (s.slot (cursor + 1).toNat) out)
        (todo.filter (· ≠ f)) } := by
  have hr := h.reader
  simp only [ReaderOk, hpc] at hr
  simp only [LapSafe, hpc] at hok
  obtain ⟨m, hm, hcheck⟩ := hr
  refine ⟨m, hm, ?_⟩
  have hkeep : CheckFails s cursor out todo →
      CheckFails s cursor (f.copy (s.slot (cursor + 1).toNat) out) (todo.filter (· ≠ f)) :=
    (checkFails_copy_iff hf).mpr
  by_cases hov : Overwritten s (cursor + 1).toNat f
  · exact .inl (hkeep (hok hf hov))
  · refine hcheck.imp hkeep ?_
    intro hcopied g hg
    by_cases hgf : g = f
    · rw [hgf]
      rw [h.next hm] at hov ⊢
      exact (Field.agree_copy_self _ _ f).trans (h.resident _ m f hm hov)
    · refine Field.agree_copy_of_ne hgf (hcopied g ?_)
      intro hmem'
      exact hg (List.mem_filter.mpr ⟨hmem', by simpa using hgf⟩)

lemma loadStep_inv {s s' : State k} {f : Field} (h : Inv s) (hok : LapSafe s (.load f))
    (hs : loadStep s f = some s') : Inv s' := by
  unfold loadStep at hs
  split at hs
  · cases hs
  · rename_i hpc
    split at hs
    · rename_i hmem
      cases hs
      refine h.reader_step ?_ h.exact
      by_cases hf : f = .sequence
      · subst hf
        exact load_sequence_inv h hpc hmem
      · exact load_payload_inv h hpc hf hok
    · cases hs

/-- The check accepts only a copy that is the message. -/
lemma checkStep_inv {s s' : State k} (h : Inv s) (hs : checkStep s = some s') : Inv s' := by
  unfold checkStep at hs
  split at hs
  · rename_i hpc
    split at hs
    · rename_i hseq
      cases hs
      refine h.return fun _ => ?_
      have hr := h.reader
      simp only [ReaderOk, hpc] at hr
      obtain ⟨m, hm, hfail | hcopied⟩ := hr
      · simp only [CheckFails, List.not_mem_nil, if_false] at hfail
        exact absurd hseq hfail
      · rw [hm, Field.eq_of_agree fun f => hcopied f List.not_mem_nil]
    · cases hs
      exact h.return (by simp)
  · cases hs

/-! ## Runs -/

lemma step_inv {s s' : State k} {a : Action} (h : Inv s) (hok : LapSafe s a)
    (hs : step s a = some s') : Inv s' := by
  rcases a with ⟨bbo, nowNs⟩ | ⟨trade, nowNs⟩ | _ | ⟨cursor, out⟩ | ⟨f⟩ | _
  · exact callPublish_inv h hok (fun _ => rfl) hs
  · exact callPublish_inv h hok (fun _ => rfl) hs
  · exact writeStep_inv h hs
  · exact callTryRead_inv h hs
  · exact loadStep_inv h hok hs
  · exact checkStep_inv h hs

/-- In every run whose loads are all lap-safe, every read that returns `Ok` returns the
message published under its number. -/
theorem reads_exact {k : ℕ} {s : State k} (h : (machine k).ReachableWhen LapSafe s) :
    ReadsExact s :=
  (h.invariant (inv_init k) fun _ _ _ hinv hok hs => step_inv hinv hok hs).exact

/-- A complete publish, then the reader's loads. -/
def publishAll (price : Int64) : List Action :=
  .callPublishBbo { bidPrice := price } 0 :: List.replicate 10 .write

/-- Capacity 2: a first read of message 1 runs beside the publish of message 2. A second one
is lapped by message 3 before it loads the sequence number, and is rejected. -/
def lappedRead : List Action :=
  publishAll 1 ++ [.callPublishBbo { bidPrice := 2 } 0, .write, .callTryRead 0 {}] ++
    Field.all.map .load ++ [.check] ++ List.replicate 9 .write ++
    [.callTryRead 0 {}, .load .price, .load .qty] ++ publishAll 3 ++
    [.load .sequence, .load .kind, .load .flags, .load .venueId, .load .marketId,
      .load .telemetry, .check]

lemma lappedRead_allowed : (machine 1).Allowed LapSafe (machine 1).init lappedRead := by
  decide

theorem reads_exact_lappedRead :
    let s := ((machine 1).exec (machine 1).init lappedRead).get lappedRead_allowed.isSome
    s.returned.map (·.status) = [.ok, .empty] ∧ ReadsExact s :=
  ⟨by decide, reads_exact lappedRead_allowed.reachable⟩

/-- Capacity 2: the reader copies slot 1 after message 3 has stored its price there and
before it has stored its number. -/
def tornRead : List Action :=
  publishAll 1 ++ publishAll 2 ++ .callPublishBbo { bidPrice := 3 } 0 :: List.replicate 5 .write ++
    .callTryRead 0 {} :: Field.all.map .load ++ [.check]

lemma tornRead_allowed :
    (machine 1).Allowed (fun _ _ => True) (machine 1).init tornRead := by
  decide

theorem torn_read_accepted :
    ¬ ∀ (k : ℕ) (s : State k), (machine k).Reachable s → ReadsExact s := by
  intro h
  have hrun := h 1 _ tornRead_allowed.reachable
  revert hrun
  decide

/-! ## The condition is needed -/

/-- A read whose sequence check can succeed does succeed when the reader runs on alone, and
keeps what it has copied. -/
lemma read_completes : ∀ (n : ℕ) {s : State k} {head cursor : UInt64} {out : ShmMessageSlot}
    {todo : List Field}, todo.length = n → s.reader = .copySlot head cursor out todo →
    ¬ CheckFails s cursor out todo →
    ∃ as s' out', (machine k).exec s as = some s' ∧
      s'.returned = s.returned ++ [{ cursor := cursor, status := .ok, out := out' }] ∧
      ∀ f ∉ todo, f.Agree out' out := by
  intro n
  induction n using Nat.strong_induction_on with
  | _ n ih =>
    intro s head cursor out todo hlen hpc hcheck
    rcases todo with _ | ⟨g, rest⟩
    · have hseq : out.sequence = cursor + 1 := by
        simpa [CheckFails] using hcheck
      refine ⟨[.check], s.return cursor .ok out, out, ?_, rfl, fun f _ => ?_⟩
      · simp [Machine.exec, machine, step, checkStep, hpc, hseq]
      · cases f <;> rfl
    · set todo' := (g :: rest).filter (· ≠ g) with htodo'
      set out' := g.copy (s.slot (cursor + 1).toNat) out with hout'
      set s1 : State k := { s with reader := .copySlot head cursor out' todo' } with hs1
      -- copy any field that is left, here the first
      have hload : loadStep s g = some s1 := by
        simp [loadStep, hpc, hs1, htodo', hout']
      have hshort : todo'.length < n := by
        rw [← hlen, htodo', List.filter_cons_of_neg (by simp)]
        exact Nat.lt_succ_of_le (List.length_filter_le _ _)
      -- the copy of a field leaves the outcome of the check: it reads the sequence of the slot, or
      -- the one already copied
      have hcheck' : ¬ CheckFails s1 cursor out' todo' := by
        intro hfail
        apply hcheck
        by_cases hg : g = .sequence
        · have hnot : Field.sequence ∉ todo' := by simp [htodo', hg]
          rw [CheckFails, if_neg hnot, hout', hg] at hfail
          rw [CheckFails, if_pos (by simp [hg])]
          exact hfail
        · exact (checkFails_copy_iff hg).mp hfail
      obtain ⟨as, s', out'', hexec, hret, hagree⟩ := ih _ hshort rfl rfl hcheck'
      refine ⟨.load g :: as, s', out'', ?_, hret, ?_⟩
      · have hstep : (machine k).step s (.load g) = some s1 := hload
        rw [Machine.exec, hstep]
        exact hexec
      · intro f hf
        have hfg : f ≠ g := fun heq => hf (heq ▸ List.mem_cons_self)
        have hnot : f ∉ todo' := fun hmem => hf (List.mem_of_mem_filter hmem)
        have hout : f.Agree out' out := Field.agree_copy_of_ne hfg (by cases f <;> rfl)
        exact (hagree f hnot).trans hout

/-- From a load that breaks the condition the reader can run on to an accepted read that
holds the field of a later message. -/
theorem accepted_of_not_lapSafe {s : State k} {head cursor : UInt64} {out : ShmMessageSlot}
    {todo : List Field} {f : Field} (hpc : s.reader = .copySlot head cursor out todo)
    (hf : f ∈ todo) (hbad : ¬ LapSafe s (.load f)) :
    Overwritten s (cursor + 1).toNat f ∧ ∃ as s' out', (machine k).exec s (.load f :: as) = some s' ∧
      s'.returned = s.returned ++ [{ cursor := cursor, status := .ok, out := out' }] ∧
      f.Agree out' (s.slot (cursor + 1).toNat) := by
  simp only [LapSafe, hpc, Classical.not_imp] at hbad
  obtain ⟨hne, hov, hcheck⟩ := hbad
  refine ⟨hov, ?_⟩
  set s1 : State k :=
    { s with
      reader := .copySlot head cursor (f.copy (s.slot (cursor + 1).toNat) out)
        (todo.filter (· ≠ f)) } with hs1
  have hload : (machine k).step s (.load f) = some s1 := by
    simp [machine, step, loadStep, hpc, hf, hs1]
  have hcheck' : ¬ CheckFails s1 cursor (f.copy (s.slot (cursor + 1).toNat) out)
      (todo.filter (· ≠ f)) :=
    fun hfail => hcheck ((checkFails_copy_iff hne).mp hfail)
  obtain ⟨as, s', out', hexec, hret, hagree⟩ := read_completes _ rfl rfl hcheck'
  refine ⟨as, s', out', ?_, hret, ?_⟩
  · rw [Machine.exec, hload]
    exact hexec
  · exact (hagree f (by simp)).trans (Field.agree_copy_self _ _ f)

end ShmInterleaving
end ChainMarketPrice.Distribution
