import Mathlib.Data.List.Basic
import Mathlib.Tactic.Ring

/-!
# Byte strings

Strings of bytes, strings of a fixed length, big-endian numbers and the
exclusive or of two strings.
-/

namespace Slt.Lib

abbrev Bytes := List UInt8

abbrev FixedBytes (n : Nat) := { bs : Bytes // bs.length = n }

namespace FixedBytes

def ofBytes? (n : Nat) (bs : Bytes) : Option (FixedBytes n) :=
  if h : bs.length = n then some ⟨bs, h⟩ else none

def replicate (n : Nat) (b : UInt8) : FixedBytes n := ⟨List.replicate n b, List.length_replicate⟩

def self (bs : Bytes) : FixedBytes bs.length := ⟨bs, rfl⟩

@[simp] theorem length_val (x : FixedBytes n) : x.val.length = n := x.property

@[simp] theorem ofBytes?_val (x : FixedBytes n) : ofBytes? n x.val = some x := by
  simp [ofBytes?, x.property]

theorem ofBytes?_of_length {bs : Bytes} (h : bs.length = n) : ofBytes? n bs = some ⟨bs, h⟩ := by
  simp [ofBytes?, h]

end FixedBytes

/-! ## Big-endian numbers -/

/-- The low `k` bytes of `n`, most significant first. -/
def beBytes : Nat → Nat → Bytes
  | 0, _ => []
  | k + 1, n => UInt8.ofNat (n / 256 ^ k) :: beBytes k n

def ofBe : Bytes → Nat
  | [] => 0
  | b :: bs => b.toNat * 256 ^ bs.length + ofBe bs

@[simp] theorem length_beBytes (k n : Nat) : (beBytes k n).length = k := by
  induction k with
  | zero => rfl
  | succ k ih => simp [beBytes, ih]

theorem drop_beBytes (j k n : Nat) : (beBytes (j + k) n).drop j = beBytes k n := by
  induction j with
  | zero => simp
  | succ j ih =>
    rw [Nat.add_right_comm, beBytes]
    exact ih

theorem ofBe_beBytes (k n : Nat) : ofBe (beBytes k n) = n % 256 ^ k := by
  induction k with
  | zero => simp [beBytes, ofBe, Nat.mod_one]
  | succ k ih =>
    have hb : (UInt8.ofNat (n / 256 ^ k)).toNat = n / 256 ^ k % 256 := by simp
    rw [beBytes, ofBe, ih, length_beBytes, hb, Nat.pow_succ, Nat.mod_mul]
    ring

theorem ofBe_lt (bs : Bytes) : ofBe bs < 256 ^ bs.length := by
  induction bs with
  | nil => simp [ofBe]
  | cons b bs ih =>
    have hb : b.toNat < 256 := b.toNat_lt
    have hmul : b.toNat * 256 ^ bs.length ≤ 255 * 256 ^ bs.length :=
      Nat.mul_le_mul_right _ (by omega)
    rw [ofBe, List.length_cons, Nat.pow_succ]
    omega

theorem beBytes_inj {k m n : Nat} (hm : m < 256 ^ k) (hn : n < 256 ^ k)
    (h : beBytes k m = beBytes k n) : m = n := by
  have hof := congrArg ofBe h
  rwa [ofBe_beBytes, ofBe_beBytes, Nat.mod_eq_of_lt hm, Nat.mod_eq_of_lt hn] at hof

theorem ofBe_inj {as bs : Bytes} (hlength : as.length = bs.length) (h : ofBe as = ofBe bs) :
    as = bs := by
  induction as generalizing bs with
  | nil =>
    cases bs with
    | nil => rfl
    | cons b bs => cases hlength
  | cons a as ih =>
    cases bs with
    | nil => cases hlength
    | cons b bs =>
      have hlen : as.length = bs.length := Nat.succ.inj hlength
      have hpos : 0 < 256 ^ bs.length := Nat.pow_pos (by decide)
      have ha := ofBe_lt as
      have hb := ofBe_lt bs
      rw [hlen] at ha
      rw [ofBe, ofBe, hlen] at h
      have hhead : a.toNat = b.toNat := by
        have := congrArg (· / 256 ^ bs.length) h
        simpa [Nat.mul_comm _ (256 ^ bs.length), Nat.mul_add_div hpos, Nat.div_eq_of_lt ha,
          Nat.div_eq_of_lt hb] using this
      have htail : ofBe as = ofBe bs := by
        rw [hhead] at h
        exact Nat.add_left_cancel h
      rw [UInt8.toNat_inj.mp hhead, ih hlen htail]

theorem beBytes_ofBe (bs : Bytes) : beBytes bs.length (ofBe bs) = bs := by
  refine ofBe_inj (length_beBytes _ _) ?_
  rw [ofBe_beBytes, Nat.mod_eq_of_lt (ofBe_lt bs)]

theorem ofBe_replicate_zero_append (k : Nat) (bs : Bytes) :
    ofBe (List.replicate k 0 ++ bs) = ofBe bs := by
  induction k with
  | zero => rfl
  | succ k ih => simp [List.replicate_succ, ofBe, ih]

theorem u64_ofBe_iff {bs : Bytes} (h : bs.length = 8) (n : UInt64) :
    UInt64.ofNat (ofBe bs) = n ↔ beBytes 8 n.toNat = bs := by
  constructor
  · rintro rfl
    have hlt := ofBe_lt bs
    rw [h] at hlt
    rw [UInt64.toNat_ofNat_of_lt' hlt, ← h, beBytes_ofBe]
  · rintro rfl
    have hlt : n.toNat < 256 ^ 8 := n.toNat_lt
    rw [ofBe_beBytes, Nat.mod_eq_of_lt hlt, UInt64.ofNat_toNat]

theorem u16_ofBe_iff {bs : Bytes} (h : bs.length = 2) (n : UInt16) :
    UInt16.ofNat (ofBe bs) = n ↔ beBytes 2 n.toNat = bs := by
  constructor
  · rintro rfl
    have hlt := ofBe_lt bs
    rw [h] at hlt
    rw [UInt16.toNat_ofNat_of_lt' hlt, ← h, beBytes_ofBe]
  · rintro rfl
    have hlt : n.toNat < 256 ^ 2 := n.toNat_lt
    rw [ofBe_beBytes, Nat.mod_eq_of_lt hlt, UInt16.ofNat_toNat]

/-! ## Consecutive fields -/

/-- The fields stand in the string one after the other from `off` on, up to its end. -/
def LaidOut (bs : Bytes) : Nat → List Bytes → Prop
  | off, [] => bs.length = off
  | off, x :: xs => (bs.drop off).take x.length = x ∧ LaidOut bs (off + x.length) xs

theorem laidOut_iff {bs : Bytes} {off : Nat} (h : off ≤ bs.length) (xs : List Bytes) :
    LaidOut bs off xs ↔ bs.drop off = xs.flatten := by
  induction xs generalizing off with
  | nil =>
    rw [LaidOut, List.flatten_nil, List.drop_eq_nil_iff]
    omega
  | cons x xs ih =>
    rw [LaidOut, List.flatten_cons]
    constructor
    · rintro ⟨hx, hrest⟩
      have hlen := congrArg List.length hx
      rw [List.length_take, List.length_drop] at hlen
      rw [ih (by omega), ← List.drop_drop] at hrest
      calc bs.drop off
        _ = (bs.drop off).take x.length ++ (bs.drop off).drop x.length :=
          (List.take_append_drop _ _).symm
        _ = x ++ xs.flatten := by rw [hx, hrest]
    · intro hdrop
      have hlen := congrArg List.length hdrop
      rw [List.length_append, List.length_drop] at hlen
      rw [ih (by omega), ← List.drop_drop, hdrop]
      exact ⟨List.take_left, List.drop_left⟩

/-- A string is the concatenation of fields exactly if they are laid out in it. -/
theorem laidOut_zero_iff (bs : Bytes) (xs : List Bytes) : LaidOut bs 0 xs ↔ bs = xs.flatten :=
  laidOut_iff (Nat.zero_le _) xs

theorem take_one_iff {bs : Bytes} {off : Nat} (h : off < bs.length) (b : UInt8) :
    (bs.drop off).take 1 = [b] ↔ bs.getD off 0 = b := by
  have hget : bs.getD off 0 = bs[off] := by simp [List.getD, h]
  rw [List.drop_eq_getElem_cons h, List.take_succ_cons, List.take_zero, List.singleton_inj, hget]

/-! ## Exclusive or -/

/-- The bytes of `xs`, each xored with the byte of `ys` at its place; `xs`
past the end of `ys` stays as it is. -/
def xorBytes : Bytes → Bytes → Bytes
  | x :: xs, y :: ys => (x ^^^ y) :: xorBytes xs ys
  | xs, _ => xs

@[simp] theorem xorBytes_nil (xs : Bytes) : xorBytes xs [] = xs := by
  cases xs <;> rfl

@[simp] theorem length_xorBytes (xs ys : Bytes) : (xorBytes xs ys).length = xs.length := by
  fun_induction xorBytes xs ys with
  | case1 x xs y ys ih => simp [ih]
  | case2 => rfl

@[simp] theorem xorBytes_xorBytes (xs ys : Bytes) : xorBytes (xorBytes xs ys) ys = xs := by
  fun_induction xorBytes xs ys with
  | case1 x xs y ys ih =>
    rw [xorBytes, ih, UInt8.xor_assoc, UInt8.xor_self, UInt8.xor_zero]
  | case2 xs ys h =>
    cases xs with
    | nil => rfl
    | cons x xs =>
      cases ys with
      | nil => simp
      | cons y ys => exact absurd rfl (h x xs y ys rfl)

theorem xorBytes_append {xs ys : Bytes} (h : ys.length ≤ xs.length) (zs : Bytes) :
    xorBytes (xs ++ zs) ys = xorBytes xs ys ++ zs := by
  induction xs generalizing ys with
  | nil =>
    cases ys with
    | nil => cases zs <;> rfl
    | cons y ys => simp at h
  | cons x xs ih =>
    cases ys with
    | nil => rfl
    | cons y ys =>
      simp only [List.length_cons, Nat.add_le_add_iff_right] at h
      simp [xorBytes, ih h]

/-- Only as many bytes of the second string count as the first one has. -/
theorem xorBytes_take (xs ys : Bytes) : xorBytes xs (ys.take xs.length) = xorBytes xs ys := by
  fun_induction xorBytes xs ys with
  | case1 x xs y ys ih => simp [xorBytes, ih]
  | case2 xs ys h =>
    cases xs with
    | nil => rfl
    | cons x xs =>
      cases ys with
      | nil => simp
      | cons y ys => exact absurd rfl (h x xs y ys rfl)

/-- Xoring a string with two others of its length gives two results, unless
the two others are the same. -/
theorem xorBytes_inj {xs ys zs : Bytes} (hy : ys.length = xs.length) (hz : zs.length = xs.length)
    (h : xorBytes xs ys = xorBytes xs zs) : ys = zs := by
  induction xs generalizing ys zs with
  | nil => rw [List.length_eq_zero_iff.mp hy, List.length_eq_zero_iff.mp hz]
  | cons x xs ih =>
    cases ys with
    | nil => simp at hy
    | cons y ys =>
      cases zs with
      | nil => simp at hz
      | cons z zs =>
        simp only [xorBytes, List.cons.injEq] at h
        obtain ⟨hhead, htail⟩ := h
        simp only [List.length_cons, Nat.add_right_cancel_iff] at hy hz
        rw [UInt8.xor_right_inj] at hhead
        rw [hhead, ih hy hz htail]

end Slt.Lib
