import Mathlib.Data.UInt
import Mathlib.Tactic.Common

/-!
# `TopicKey`

`crates/distribution/src/lib.rs`. A subscription topic packed into 64 bits: venue (8 bits),
market (24 bits), stream type (8 bits), flags (24 bits). The constructor masks the market and
the flags to their fields, so two topics coincide when their fields do (`new_eq_iff`).
-/

namespace ChainMarketPrice.Distribution

/-- `TopicKey`. -/
structure TopicKey where
  key : UInt64
deriving Repr, DecidableEq

namespace TopicKey

def new (venueId : UInt8) (marketId : UInt32) (streamType : UInt8) (flags : UInt32) : TopicKey where
  key := (venueId.toUInt64 <<< 56)
    ||| ((marketId &&& 0x00FFFFFF).toUInt64 <<< 32)
    ||| (streamType.toUInt64 <<< 24)
    ||| (flags &&& 0x00FFFFFF).toUInt64

def venueId (t : TopicKey) : UInt8 := (t.key >>> 56).toUInt8

def marketId (t : TopicKey) : UInt32 := ((t.key >>> 32) &&& 0x00FFFFFF).toUInt32

def streamType (t : TopicKey) : UInt8 := ((t.key >>> 24) &&& 0xFF).toUInt8

def flags (t : TopicKey) : UInt32 := (t.key &&& 0x00FFFFFF).toUInt32

/-- The low 24 bits of a word. -/
lemma toNat_mask24 (x : UInt32) : (x &&& 0x00FFFFFF).toUInt64.toNat = x.toNat % 2 ^ 24 := by
  rw [UInt32.toNat_toUInt64, UInt32.toNat_and]
  exact Nat.and_two_pow_sub_one_eq_mod x.toNat 24

/-- A shift that loses no bit. -/
lemma toNat_shiftLeft_of_lt {x : UInt64} {n : UInt64} {m : ℕ} (hn : n.toNat = m) (hm : m < 64)
    (h : x.toNat * 2 ^ m < 2 ^ 64) : (x <<< n).toNat = x.toNat <<< m := by
  rw [UInt64.toNat_shiftLeft, hn, Nat.mod_eq_of_lt hm]
  refine Nat.mod_eq_of_lt ?_
  rw [Nat.shiftLeft_eq]
  exact h

/-- The fields side by side. -/
lemma toNat_new (v : UInt8) (m : UInt32) (s : UInt8) (f : UInt32) :
    (new v m s f).key.toNat
      = v.toNat * 2 ^ 56 + (m.toNat % 2 ^ 24) * 2 ^ 32 + s.toNat * 2 ^ 24 + f.toNat % 2 ^ 24 := by
  have hv : v.toNat < 2 ^ 8 := v.toNat_lt
  have hs : s.toNat < 2 ^ 8 := s.toNat_lt
  have hm : m.toNat % 2 ^ 24 < 2 ^ 24 := Nat.mod_lt _ (by decide)
  have hf : f.toNat % 2 ^ 24 < 2 ^ 24 := Nat.mod_lt _ (by decide)
  have hv' : (v.toUInt64 <<< 56).toNat = v.toNat <<< 56 := by
    rw [toNat_shiftLeft_of_lt rfl (by decide) (by
      rw [UInt8.toNat_toUInt64]
      show v.toNat * 2 ^ 56 < 2 ^ 64
      omega), UInt8.toNat_toUInt64]
    rfl
  have hm' : ((m &&& 0x00FFFFFF).toUInt64 <<< 32).toNat = (m.toNat % 2 ^ 24) <<< 32 := by
    rw [toNat_shiftLeft_of_lt rfl (by decide) (by
      rw [toNat_mask24]
      show m.toNat % 2 ^ 24 * 2 ^ 32 < 2 ^ 64
      omega), toNat_mask24]
    rfl
  have hs' : (s.toUInt64 <<< 24).toNat = s.toNat <<< 24 := by
    rw [toNat_shiftLeft_of_lt rfl (by decide) (by
      rw [UInt8.toNat_toUInt64]
      show s.toNat * 2 ^ 24 < 2 ^ 64
      omega), UInt8.toNat_toUInt64]
    rfl
  -- the lower fields fit below the shift of the field above them
  have hlow : s.toNat <<< 24 ||| f.toNat % 2 ^ 24 = s.toNat * 2 ^ 24 + f.toNat % 2 ^ 24 := by
    rw [← Nat.shiftLeft_add_eq_or_of_lt hf, Nat.shiftLeft_eq]
  have hmid : (m.toNat % 2 ^ 24) <<< 32 ||| (s.toNat * 2 ^ 24 + f.toNat % 2 ^ 24)
      = (m.toNat % 2 ^ 24) * 2 ^ 32 + (s.toNat * 2 ^ 24 + f.toNat % 2 ^ 24) := by
    rw [← Nat.shiftLeft_add_eq_or_of_lt (by omega), Nat.shiftLeft_eq]
  have htop : v.toNat <<< 56
        ||| ((m.toNat % 2 ^ 24) * 2 ^ 32 + (s.toNat * 2 ^ 24 + f.toNat % 2 ^ 24))
      = v.toNat * 2 ^ 56
        + ((m.toNat % 2 ^ 24) * 2 ^ 32 + (s.toNat * 2 ^ 24 + f.toNat % 2 ^ 24)) := by
    rw [← Nat.shiftLeft_add_eq_or_of_lt (by omega), Nat.shiftLeft_eq]
  rw [new, UInt64.toNat_or, UInt64.toNat_or, UInt64.toNat_or, hv', hm', hs', toNat_mask24,
    Nat.or_assoc, Nat.or_assoc, hlow, hmid, htop]
  omega

/-- Two topics coincide exactly when their fields do, the market and the flags modulo
`2 ^ 24`. -/
theorem new_eq_iff {v v' : UInt8} {m m' : UInt32} {s s' : UInt8} {f f' : UInt32} :
    new v m s f = new v' m' s' f' ↔
      v = v' ∧ m.toNat % 2 ^ 24 = m'.toNat % 2 ^ 24 ∧ s = s' ∧
        f.toNat % 2 ^ 24 = f'.toNat % 2 ^ 24 := by
  have hkey : new v m s f = new v' m' s' f'
      ↔ (new v m s f).key.toNat = (new v' m' s' f').key.toNat := by
    rw [TopicKey.mk.injEq, UInt64.toNat_inj]
  rw [hkey, toNat_new, toNat_new, ← UInt8.toNat_inj, ← UInt8.toNat_inj]
  have hs : s.toNat < 2 ^ 8 := s.toNat_lt
  have hs' : s'.toNat < 2 ^ 8 := s'.toNat_lt
  constructor
  · intro h
    omega
  · rintro ⟨hv, hm, hs, hf⟩
    rw [hv, hm, hs, hf]

end TopicKey
end ChainMarketPrice.Distribution
