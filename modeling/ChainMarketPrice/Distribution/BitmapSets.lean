import Mathlib.Data.Finset.Card
import Mathlib.Data.Finset.Image
import ChainMarketPrice.Distribution.ClientBitmapTheorems

/-!
# Bitmaps as finite sets

`members` is the set of ids that a bitmap denotes. Any sequence of operations on bitmaps acts on
their sets as the same operations on sets (`members_run`), the queries are those of the set, and
both loops over a bitmap go through the members in increasing order.
-/

namespace ChainMarketPrice.Distribution

open BitWord

namespace ClientBitmap

/-- The ids below 1024 whose position is set. -/
def members (b : ClientBitmap) : Finset ℕ := (Finset.range maxClientCapacity).filter fun n => b.bit n

variable (b other : ClientBitmap) (clientId : UInt32)

/-! ## Operations -/

lemma mem_members (n : ℕ) : n ∈ b.members ↔ b.bit n = true := by
  unfold members
  rw [Finset.mem_filter, Finset.mem_range]
  exact ⟨fun h => h.2, fun h => ⟨lt_of_bit h, h⟩⟩

lemma members_new : new.members = ∅ := by
  rw [Finset.eq_empty_iff_forall_notMem]
  intro n hn
  rw [mem_members, bit_new] at hn
  exact absurd hn (by decide)

lemma members_insert : (b.insert clientId).2.members =
    if clientId.toNat < maxClientCapacity then Insert.insert clientId.toNat b.members
    else b.members := by
  ext n
  rw [mem_members, bit_insert, Bool.or_eq_true, decide_eq_true_eq, ← mem_members]
  split
  · next hlt =>
    rw [Finset.mem_insert, or_comm]
    exact or_congr_left (and_iff_left_of_imp fun hn => hn ▸ hlt)
  · next hge => exact or_iff_left fun hn => hge (hn.1 ▸ hn.2)

lemma members_remove : (b.remove clientId).2.members = b.members.erase clientId.toNat := by
  ext n
  rw [mem_members, bit_remove, Bool.and_eq_true, decide_eq_true_eq, Finset.mem_erase,
    mem_members, and_comm]

lemma members_union : (b.union other).members = b.members ∪ other.members := by
  ext n
  rw [mem_members, bit_union, Bool.or_eq_true, Finset.mem_union, mem_members, mem_members]

lemma bit_intersect (n : ℕ) : (b.intersect other).bit n = (b.bit n && other.bit n) := by
  unfold bit intersect
  split
  · rw [UInt64.toNat_and, Nat.testBit_and]
  · rfl

lemma members_intersect : (b.intersect other).members = b.members ∩ other.members := by
  ext n
  rw [mem_members, bit_intersect, Bool.and_eq_true, Finset.mem_inter, mem_members, mem_members]

/-! ## Queries -/

lemma contains_iff : b.contains clientId = true ↔ clientId.toNat ∈ b.members := by
  rw [contains_eq, mem_members]

lemma isEmpty_iff_members : b.isEmpty = true ↔ b.members = ∅ := by
  rw [isEmpty_iff, Finset.eq_empty_iff_forall_notMem]
  refine forall_congr' fun n => ?_
  rw [mem_members, Bool.not_eq_true]

/-- `insert` says whether the id was not there. -/
lemma fst_insert : (b.insert clientId).1
    = (decide (clientId.toNat < maxClientCapacity) && !b.contains clientId) := by
  unfold insert contains locate
  dsimp only
  by_cases hroom : clientId.toNat / 64 < defaultBitmapWords
  · rw [dif_pos hroom, decide_eq_true (div_lt_words_iff.mp hroom), Bool.true_and]
  · rw [dif_neg hroom, decide_eq_false (mt div_lt_words_iff.mpr hroom), Bool.false_and]

lemma fst_remove : (b.remove clientId).1 = b.contains clientId := by
  unfold remove contains
  cases locate clientId with
  | none => rfl
  | some place => rfl

lemma insert_changes_iff :
    (b.insert clientId).1 = true ↔ (b.insert clientId).2.members ≠ b.members := by
  rw [fst_insert, members_insert, Bool.and_eq_true, decide_eq_true_eq, Bool.not_eq_true',
    ← Bool.not_eq_true, contains_iff]
  split
  · next hlt =>
    rw [Ne, Finset.insert_eq_self]
    exact and_iff_right hlt
  · next hge => exact iff_of_false (fun h => hge h.1) fun h => h rfl

lemma remove_changes_iff :
    (b.remove clientId).1 = true ↔ (b.remove clientId).2.members ≠ b.members := by
  rw [fst_remove, members_remove, contains_iff, Ne, Finset.erase_eq_self, not_not]

/-! ## Loops -/

lemma toNat_mem_members {id : UInt32} : id ∈ b.ids ↔ id.toNat ∈ b.members := by
  rw [mem_ids, contains_iff]

/-- The ids that the loops visit, as numbers, are the members. -/
lemma members_eq_toFinset : b.members = (b.ids.map UInt32.toNat).toFinset := by
  ext n
  rw [List.mem_toFinset, List.mem_map]
  constructor
  · intro hn
    have hlt : n < UInt32.size := by
      have hcapacity : n < 16 * 64 := lt_of_bit ((b.mem_members n).mp hn)
      unfold UInt32.size
      omega
    have hvalue : (UInt32.ofNat n).toNat = n := UInt32.toNat_ofNat_of_lt' hlt
    exact ⟨UInt32.ofNat n, b.toNat_mem_members.mpr (by rwa [hvalue]), hvalue⟩
  · rintro ⟨id, hid, rfl⟩
    exact b.toNat_mem_members.mp hid

lemma card_members : b.members.card = b.ids.length := by
  have hnodup : (b.ids.map UInt32.toNat).Nodup :=
    b.nodup_ids.map fun _ _ => UInt32.toNat_inj.mp
  rw [members_eq_toFinset, List.toFinset_card_of_nodup hnodup, List.length_map]

lemma length_ids_le : b.ids.length ≤ maxClientCapacity := by
  rw [← card_members]
  exact (Finset.card_filter_le _ _).trans (Finset.card_range _).le

/-- The words are counted one by one. -/
lemma count_eq_card : b.count = b.members.card := by
  rw [card_members, count, ids, List.length_flatMap]
  congr 1
  apply List.map_congr_left
  intro i _
  rw [List.length_map, wordBits, countOnes, toNat_cpop_eq, List.range_eq_range']

end ClientBitmap

namespace ClientBitmapIter

open ClientBitmap

/-- The ids of the word at `wordIdx`. -/
def wordIds (wordIdx : ℕ) (w : UInt64) : List UInt32 :=
  (wordBits w 0).map fun j => UInt32.ofNat (wordIdx * 64) + UInt32.ofNat j

/-- The ids that the iterator has still to visit. -/
def remaining (it : ClientBitmapIter) : List UInt32 :=
  wordIds it.wordIdx it.currentWord ++
    ((List.finRange defaultBitmapWords).drop (it.wordIdx + 1)).flatMap fun i =>
      wordIds i.val (it.bitmap.words i)

lemma wordIds_zero (wordIdx : ℕ) : wordIds wordIdx 0 = [] := by
  have hbits : wordBits 0 0 = [] := by
    unfold wordBits
    rw [List.filter_eq_nil_iff]
    intro j _
    rw [UInt64.toNat_zero, Nat.zero_testBit]
    decide
  rw [wordIds, hbits, List.map_nil]

/-- Up to its lowest set bit a word has no ids. -/
lemma wordBits_eq {w : UInt64} {i : ℕ} (hi : i ≤ 64)
    (hlow : ∀ j < i, w.toNat.testBit j = false) : wordBits w i = wordBits w 0 := by
  unfold wordBits
  have hsplit : List.range' 0 (64 - 0) = List.range' 0 i ++ List.range' i (64 - i) := by
    rw [show 64 - 0 = i + (64 - i) by omega, ← List.range'_append_1, Nat.zero_add]
  have hnil : (List.range' 0 i).filter w.toNat.testBit = [] := by
    rw [List.filter_eq_nil_iff]
    intro j hj
    rw [List.mem_range'_1] at hj
    rw [hlow j (by omega)]
    decide
  rw [hsplit, List.filter_append, hnil, List.nil_append]

/-- One id of a word, and the word without it. -/
lemma wordIds_eq_cons (wordIdx : ℕ) {w : UInt64} (hw : w ≠ 0) :
    wordIds wordIdx w
      = (UInt32.ofNat (wordIdx * 64) + UInt32.ofNat (trailingZeros w))
        :: wordIds wordIdx (w &&& (w - 1)) := by
  have hlow : ∀ j < w.toBitVec.ctz.toNat + 1, (w &&& (w - 1)).toNat.testBit j = false := by
    intro j hj
    rw [testBit_clear_lowest hw]
    by_cases hlast : j = w.toBitVec.ctz.toNat
    · simp [hlast]
    · rw [testBit_of_lt_ctz (show j < w.toBitVec.ctz.toNat by omega), Bool.false_and]
  unfold wordIds
  rw [wordBits_eq_cons hw fun j hj => absurd hj (Nat.not_lt_zero j), List.map_cons,
    wordBits_eq (ctz_lt hw) hlow]
  rfl

/-- The rest of the words begins with the next one. -/
lemma drop_finRange {k : ℕ} (h : k < defaultBitmapWords) :
    (List.finRange defaultBitmapWords).drop k
      = ⟨k, h⟩ :: (List.finRange defaultBitmapWords).drop (k + 1) := by
  rw [List.drop_eq_getElem_cons (by rwa [List.length_finRange]), List.getElem_finRange]
  rfl

lemma remaining_iter (b : ClientBitmap) : b.iter.remaining = b.ids := by
  have hall : List.finRange defaultBitmapWords
      = ⟨0, by decide⟩ :: (List.finRange defaultBitmapWords).drop 1 :=
    drop_finRange (k := 0) (by decide)
  unfold ids
  rw [hall, List.flatMap_cons]
  rfl

/-- Empty words are skipped, and there is no id in them. -/
lemma skip_spec (it : ClientBitmapIter) :
    (it.skip.1 = true → it.skip.2.currentWord ≠ 0 ∧ it.skip.2.remaining = it.remaining) ∧
      (it.skip.1 = false → it.remaining = []) := by
  induction it using skip.induct with
  | case1 it hword =>
    rw [skip, if_pos hword]
    exact ⟨fun _ => ⟨hword, rfl⟩, nofun⟩
  | case2 it hword hnext ih =>
    have hrest : ({ it with wordIdx := it.wordIdx + 1,
                            currentWord := it.bitmap.words ⟨_, hnext⟩ } : ClientBitmapIter).remaining
        = it.remaining := by
      rw [not_ne_iff] at hword
      unfold remaining
      rw [hword, wordIds_zero, List.nil_append, drop_finRange hnext, List.flatMap_cons]
    rw [skip, if_neg hword, dif_pos hnext, ← hrest]
    exact ih
  | case3 it hword hlast =>
    rw [skip, if_neg hword, dif_neg hlast]
    refine ⟨nofun, fun _ => ?_⟩
    rw [not_ne_iff] at hword
    unfold remaining
    rw [hword, wordIds_zero, List.nil_append, List.drop_eq_nil_of_le, List.flatMap_nil]
    rw [List.length_finRange]
    omega

/-- A call takes the first of the ids that remain, or there is none. -/
lemma next_spec (it : ClientBitmapIter) :
    (it.next.1 = none ∧ it.remaining = []) ∨
      ∃ clientId, it.next.1 = some clientId ∧ it.remaining = clientId :: it.next.2.remaining := by
  obtain ⟨hfound, hnone⟩ := skip_spec it
  unfold next
  cases hskip : it.skip with
  | mk found it' =>
    rw [hskip] at hfound hnone
    cases found with
    | false => exact .inl ⟨rfl, hnone rfl⟩
    | true =>
      obtain ⟨hword, hrest⟩ := hfound rfl
      refine .inr ⟨_, rfl, ?_⟩
      rw [← hrest]
      unfold remaining
      rw [wordIds_eq_cons _ hword, List.cons_append]

/-- A loop over the iterator gets all that remains, in order. -/
lemma collect_eq {fuel : ℕ} {it : ClientBitmapIter} (h : it.remaining.length < fuel) :
    collect fuel it = some it.remaining := by
  induction fuel generalizing it with
  | zero => exact absurd h (Nat.not_lt_zero _)
  | succ fuel ih =>
    unfold collect
    rcases next_spec it with ⟨hnone, hnil⟩ | ⟨clientId, hsome, hcons⟩
    · split
      · rw [hnil]
      · next hnext =>
        rw [hnext] at hnone
        cases hnone
    · split
      · next hnext =>
        rw [hnext] at hsome
        cases hsome
      · next id it' hnext =>
        rw [hnext] at hsome hcons
        obtain rfl := Option.some.inj hsome
        rw [hcons] at h ⊢
        rw [ih (Nat.lt_of_succ_lt_succ h), Option.map_some]

end ClientBitmapIter

/-! ## Sequences of operations -/

/-- The operations on a family of bitmaps. -/
inductive BitmapOp (ι : Type)
  | insert (target : ι) (clientId : UInt32)
  | remove (target : ι) (clientId : UInt32)
  | clear (target : ι)
  | union (target left right : ι)
  | intersect (target left right : ι)

namespace BitmapOp

variable {ι : Type} [DecidableEq ι]

def apply (bitmaps : ι → ClientBitmap) : BitmapOp ι → ι → ClientBitmap
  | insert target clientId =>
    Function.update bitmaps target ((bitmaps target).insert clientId).2
  | remove target clientId =>
    Function.update bitmaps target ((bitmaps target).remove clientId).2
  | clear target => Function.update bitmaps target (bitmaps target).clear
  | union target left right =>
    Function.update bitmaps target ((bitmaps left).union (bitmaps right))
  | intersect target left right =>
    Function.update bitmaps target ((bitmaps left).intersect (bitmaps right))

/-- The same operation on sets of ids below 1024. -/
def applySet (sets : ι → Finset ℕ) : BitmapOp ι → ι → Finset ℕ
  | insert target clientId =>
    Function.update sets target
      (if clientId.toNat < maxClientCapacity then Insert.insert clientId.toNat (sets target)
        else sets target)
  | remove target clientId => Function.update sets target ((sets target).erase clientId.toNat)
  | clear target => Function.update sets target ∅
  | union target left right => Function.update sets target (sets left ∪ sets right)
  | intersect target left right => Function.update sets target (sets left ∩ sets right)

def run (bitmaps : ι → ClientBitmap) (ops : List (BitmapOp ι)) : ι → ClientBitmap :=
  ops.foldl apply bitmaps

def runSet (sets : ι → Finset ℕ) (ops : List (BitmapOp ι)) : ι → Finset ℕ :=
  ops.foldl applySet sets

lemma members_update (bitmaps : ι → ClientBitmap) (target : ι) (b : ClientBitmap) :
    (fun i => (Function.update bitmaps target b i).members)
      = Function.update (fun i => (bitmaps i).members) target b.members := by
  funext i
  exact Function.apply_update (fun _ => ClientBitmap.members) bitmaps target b i

/-- One operation. -/
lemma members_apply (bitmaps : ι → ClientBitmap) (op : BitmapOp ι) :
    (fun i => (op.apply bitmaps i).members) = op.applySet fun i => (bitmaps i).members := by
  cases op with
  | insert target clientId =>
    rw [apply, members_update, ClientBitmap.members_insert]
    rfl
  | remove target clientId =>
    rw [apply, members_update, ClientBitmap.members_remove]
    rfl
  | clear target =>
    rw [apply, members_update, ClientBitmap.clear, ClientBitmap.members_new]
    rfl
  | union target left right =>
    rw [apply, members_update, ClientBitmap.members_union]
    rfl
  | intersect target left right =>
    rw [apply, members_update, ClientBitmap.members_intersect]
    rfl

/-- A sequence of operations. -/
lemma members_run (bitmaps : ι → ClientBitmap) (ops : List (BitmapOp ι)) :
    (fun i => (run bitmaps ops i).members) = runSet (fun i => (bitmaps i).members) ops := by
  induction ops generalizing bitmaps with
  | nil => rfl
  | cons op ops ih =>
    unfold run runSet at ih ⊢
    rw [List.foldl_cons, List.foldl_cons, ih, members_apply]

/-- After any sequence of operations each bitmap denotes the set that the same operations on sets
give; its queries are those of the set, and `for_each` and `iter` both visit exactly the members,
each once, in increasing order. -/
theorem bitmap_is_set {σ : Type} (start : ι → ClientBitmap) (ops : List (BitmapOp ι)) (i : ι) :
    (run start ops i).members = runSet (fun i => (start i).members) ops i ∧
      (∀ id, (run start ops i).contains id = true ↔ id.toNat ∈ (run start ops i).members) ∧
      ((run start ops i).isEmpty = true ↔ (run start ops i).members = ∅) ∧
      (run start ops i).count = (run start ops i).members.card ∧
      (∀ id, ((run start ops i).insert id).1 = true ↔
        ((run start ops i).insert id).2.members ≠ (run start ops i).members) ∧
      (∀ id, ((run start ops i).remove id).1 = true ↔
        ((run start ops i).remove id).2.members ≠ (run start ops i).members) ∧
      ∃ visited : List UInt32,
        visited.Pairwise (· < ·) ∧
        (∀ n, n ∈ (run start ops i).members ↔ n ∈ visited.map UInt32.toNat) ∧
        (∀ (f : σ → UInt32 → σ) (s : σ), (run start ops i).forEach f s = visited.foldl f s) ∧
        ∀ k, (run start ops i).iter.collect (maxClientCapacity + 1 + k) = some visited := by
  have hrun := congrFun (members_run start ops) i
  generalize run start ops i = b at hrun ⊢
  refine ⟨hrun, b.contains_iff, b.isEmpty_iff_members, b.count_eq_card, b.insert_changes_iff,
    b.remove_changes_iff, b.ids, b.ids_increasing, ?_, b.forEach_eq, ?_⟩
  · intro n
    rw [b.members_eq_toFinset, List.mem_toFinset]
  · intro k
    have hlen := b.length_ids_le
    rw [ClientBitmapIter.collect_eq, ClientBitmapIter.remaining_iter]
    rw [ClientBitmapIter.remaining_iter]
    omega

end BitmapOp
end ChainMarketPrice.Distribution
