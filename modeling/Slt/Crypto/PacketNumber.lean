import Slt.Lib.U64
import Mathlib.Data.Int.ModEq

/-!
# Packet numbers on the wire

A packet carries its packet number cut to one to four bytes, the fewest that
hold it (four for every number from `2 ^ 24` on). The receiver completes it to
the number closest to the one it expects next.
-/

namespace Slt.Crypto

open Lib.U64

def maxWirePnLen : Nat := 4

def packetNumberLen (pn : Nat) : Nat :=
  if pn ≤ 0xff then 1
  else if pn ≤ 0xffff then 2
  else if pn ≤ 0xffffff then 3
  else 4

def reconstructPacketNumber (truncatedPn expectedPn pnLen : Nat) : Nat :=
  if pnLen = 0 ∨ pnLen > maxWirePnLen then truncatedPn
  else
    let pnWindow := 1 <<< (pnLen * 8)
    let pnHalfWindow := pnWindow / 2
    let pnMask := pnWindow - 1
    let candidate := expectedPn &&& complement pnMask ||| truncatedPn
    let candidate :=
      match checkedAdd candidate pnHalfWindow with
      | some sum =>
        if sum ≤ expectedPn then (checkedAdd candidate pnWindow).getD candidate else candidate
      | none => candidate
    match checkedAdd expectedPn pnHalfWindow with
    | some expectedLimit =>
      if candidate > expectedLimit ∧ candidate ≥ pnWindow then candidate - pnWindow else candidate
    | none => candidate

theorem packetNumberLen_bounds (pn : Nat) : 1 ≤ packetNumberLen pn ∧ packetNumberLen pn ≤ 4 := by
  unfold packetNumberLen
  repeat' split
  all_goals omega

theorem lt_window_of_lt {pn : Nat} (h : pn < 2 ^ 32) : pn < 2 ^ (8 * packetNumberLen pn) := by
  unfold packetNumberLen
  repeat' split
  all_goals omega

/-- Half the reconstruction window of an `len`-byte packet number. -/
def halfWindow (len : Nat) : Nat := 2 ^ (8 * len - 1)

theorem two_mul_halfWindow {len : Nat} (h : 1 ≤ len) : 2 * halfWindow len = 2 ^ (8 * len) := by
  rw [halfWindow, ← Nat.pow_succ']
  congr 1
  omega

/-! ## Reconstruction as arithmetic -/

/-- The two corrections of the first guess `c` toward `e`, for a window of
`2 * half` numbers. -/
def nearest (c e half : Nat) : Nat :=
  let c := if c + half ≤ e ∧ c + 2 * half < 2 ^ 64 then c + 2 * half else c
  if e + half < 2 ^ 64 ∧ e + half < c ∧ 2 * half ≤ c then c - 2 * half else c

theorem reconstruct_eq_nearest {t e len : Nat} (hlen : 1 ≤ len ∧ len ≤ 4) (he : e < 2 ^ 64)
    (ht : t < 2 ^ (8 * len)) :
    reconstructPacketNumber t e len =
      nearest (2 ^ (8 * len) * (e / 2 ^ (8 * len)) + t) e (halfWindow len) := by
  have hwin : 1 <<< (len * 8) = 2 * halfWindow len := by
    rw [Nat.one_shiftLeft, Nat.mul_comm, two_mul_halfWindow hlen.1]
  have hguess : e &&& complement (2 * halfWindow len - 1) ||| t =
      2 ^ (8 * len) * (e / 2 ^ (8 * len)) + t := by
    rw [two_mul_halfWindow hlen.1]
    exact land_complement_mask_lor he (by omega) ht
  have hhalf : 2 * halfWindow len / 2 = halfWindow len := by omega
  have hrange : ¬(len = 0 ∨ len > maxWirePnLen) := by unfold maxWirePnLen; omega
  simp only [reconstructPacketNumber, if_neg hrange, hwin, hguess, hhalf, nearest]
  generalize 2 ^ (8 * len) * (e / 2 ^ (8 * len)) + t = c
  generalize halfWindow len = half
  -- Overflow of the first sum excludes `c + half ≤ e`, so the two guards agree.
  have hfirst : (match checkedAdd c half with
      | some sum => if sum ≤ e then (checkedAdd c (2 * half)).getD c else c
      | none => c) = if c + half ≤ e ∧ c + 2 * half < 2 ^ 64 then c + 2 * half else c := by
    unfold checkedAdd
    split_ifs <;> simp <;> omega
  rw [hfirst]
  generalize (if c + half ≤ e ∧ c + 2 * half < 2 ^ 64 then c + 2 * half else c) = d
  unfold checkedAdd
  split_ifs <;> simp_all; omega

/-- The window divides `2 ^ 64`, so the first guess does not overflow. -/
theorem first_guess_lt {e half : Nat} (he : e < 2 ^ 64) (hdvd : 2 * half ∣ 2 ^ 64) :
    2 * half * (e / (2 * half)) + 2 * half ≤ 2 ^ 64 := by
  obtain ⟨q, hq⟩ := hdvd
  have hlt : e / (2 * half) < q := Nat.div_lt_of_lt_mul (hq ▸ he)
  calc 2 * half * (e / (2 * half)) + 2 * half = 2 * half * (e / (2 * half) + 1) := by ring
    _ ≤ 2 * half * q := Nat.mul_le_mul_left _ hlt
    _ = 2 ^ 64 := hq.symm

theorem two_mul_halfWindow_dvd {len : Nat} (hlen : 1 ≤ len ∧ len ≤ 4) :
    2 * halfWindow len ∣ 2 ^ 64 := by
  rw [two_mul_halfWindow hlen.1]
  exact Nat.pow_dvd_pow 2 (by omega)

theorem reconstruct_lt {t e len : Nat} (hlen : 1 ≤ len ∧ len ≤ 4) (he : e < 2 ^ 64)
    (ht : t < 2 ^ (8 * len)) : reconstructPacketNumber t e len < 2 ^ 64 := by
  have hguess := first_guess_lt he (two_mul_halfWindow_dvd hlen)
  rw [reconstruct_eq_nearest hlen he ht, ← two_mul_halfWindow hlen.1]
  rw [← two_mul_halfWindow hlen.1] at ht
  generalize 2 * halfWindow len * (e / (2 * halfWindow len)) = base at *
  simp only [nearest]
  split_ifs <;> omega

/-- A number whose quotient by the window differs from the expected one's by
at most one is found again if it lies within half a window. -/
theorem nearest_of_near {n e half : Nat} (hn : n < 2 ^ 64) (he : e < 2 ^ 64)
    (hdvd : 2 * half ∣ 2 ^ 64) (hlow : e < n + half) (hhigh : n ≤ e + half) :
    nearest (2 * half * (e / (2 * half)) + n % (2 * half)) e half = n := by
  have hpos : 0 < 2 * half := by omega
  have hguess := first_guess_lt he hdvd
  have hdn : 2 * half * (n / (2 * half)) + n % (2 * half) = n := Nat.div_add_mod _ _
  have hde : 2 * half * (e / (2 * half)) + e % (2 * half) = e := Nat.div_add_mod _ _
  have hmn := Nat.mod_lt n hpos
  have hme := Nat.mod_lt e hpos
  -- Only the quotients and remainders matter; the goals below are linear in them.
  generalize n % (2 * half) = t at *
  generalize e % (2 * half) = r at *
  generalize n / (2 * half) = c at *
  generalize e / (2 * half) = a at *
  have hca : c ≤ a + 1 := by
    by_contra hlt
    have := Nat.mul_le_mul_left (2 * half) (show a + 2 ≤ c by omega)
    rw [Nat.mul_add] at this
    omega
  have hac : a ≤ c + 1 := by
    by_contra hlt
    have := Nat.mul_le_mul_left (2 * half) (show c + 2 ≤ a by omega)
    rw [Nat.mul_add] at this
    omega
  have hcases : c = a ∨ c = a + 1 ∨ a = c + 1 := by omega
  unfold nearest
  rcases hcases with rfl | rfl | rfl
  · generalize 2 * half * c = base at *
    simp only
    split_ifs <;> omega
  · rw [Nat.mul_add, Nat.mul_one] at hdn
    generalize 2 * half * a = base at *
    simp only
    split_ifs <;> omega
  · rw [Nat.mul_add, Nat.mul_one] at hde hguess ⊢
    generalize 2 * half * c = base at *
    simp only
    split_ifs <;> omega

/-- `n` can be completed from its truncation when `e` is expected: it lies
within half a window of `e`, or it is not cut at all and not before `e`. -/
def Reconstructible (n e : Nat) : Prop :=
  (e < n + halfWindow (packetNumberLen n) ∧ n ≤ e + halfWindow (packetNumberLen n)) ∨
    (n < 2 ^ 32 ∧ e ≤ n)

theorem reconstruct_of_reconstructible {n e : Nat} (hn : n < 2 ^ 64) (he : e < 2 ^ 64)
    (h : Reconstructible n e) :
    reconstructPacketNumber (n % 2 ^ (8 * packetNumberLen n)) e (packetNumberLen n) = n := by
  have hlen := packetNumberLen_bounds n
  have hmod := Nat.mod_lt n (Nat.two_pow_pos (8 * packetNumberLen n))
  rw [reconstruct_eq_nearest hlen he hmod]
  rcases h with ⟨hlow, hhigh⟩ | ⟨hshort, hle⟩
  · rw [← two_mul_halfWindow hlen.1]
    exact nearest_of_near hn he (two_mul_halfWindow_dvd hlen) hlow hhigh
  · have hwin := lt_window_of_lt hshort
    have hhalf := two_mul_halfWindow hlen.1
    rw [Nat.mod_eq_of_lt hwin, Nat.div_eq_of_lt (by omega), Nat.mul_zero, Nat.zero_add, nearest]
    split_ifs <;> omega

theorem nearest_mod (c e half : Nat) : nearest c e half % (2 * half) = c % (2 * half) := by
  have hdown : ∀ d, 2 * half ≤ d → (d - 2 * half) % (2 * half) = d % (2 * half) := fun d hd =>
    (Nat.mod_eq_sub_mod hd).symm
  simp only [nearest]
  split_ifs with hup hback hback
  · rw [Nat.add_sub_cancel]
  · exact Nat.add_mod_right c (2 * half)
  · exact hdown c hback.2.2
  · rfl

theorem reconstruct_mod {t e len : Nat} (hlen : 1 ≤ len ∧ len ≤ 4) (he : e < 2 ^ 64)
    (ht : t < 2 ^ (8 * len)) : reconstructPacketNumber t e len % 2 ^ (8 * len) = t := by
  rw [reconstruct_eq_nearest hlen he ht, ← two_mul_halfWindow hlen.1, nearest_mod,
    Nat.mul_add_mod, Nat.mod_eq_of_lt (two_mul_halfWindow hlen.1 ▸ ht)]

/-- Cutting a packet number is undone by reconstruction within half a window
of the expected number, up to both ends of `u64`; a number below `2 ^ 32` is
not cut and survives any gap before it. Whatever it is given, reconstruction
keeps the bytes of the wire. -/
theorem reconstruct_inverts_truncation {n e : Nat} (hn : n < 2 ^ 64) (he : e < 2 ^ 64) :
    (e < n + 2 ^ (8 * packetNumberLen n - 1) → n ≤ e + 2 ^ (8 * packetNumberLen n - 1) →
      reconstructPacketNumber (n % 2 ^ (8 * packetNumberLen n)) e (packetNumberLen n) = n) ∧
    (n < 2 ^ 32 → e ≤ n →
      reconstructPacketNumber (n % 2 ^ (8 * packetNumberLen n)) e (packetNumberLen n) = n) ∧
    ∀ t len, 1 ≤ len → len ≤ 4 → t < 2 ^ (8 * len) →
      reconstructPacketNumber t e len ≡ t [MOD 2 ^ (8 * len)] := by
  refine ⟨fun hlow hhigh => ?_, fun hshort hle => ?_, fun t len hone hfour ht => ?_⟩
  · exact reconstruct_of_reconstructible hn he (.inl ⟨hlow, hhigh⟩)
  · exact reconstruct_of_reconstructible hn he (.inr ⟨hshort, hle⟩)
  · rw [Nat.ModEq, reconstruct_mod ⟨hone, hfour⟩ he ht, Nat.mod_eq_of_lt ht]

/-- The last number, half a window after the expected one: the limit of the
expected number does not fit into `u64`. -/
theorem reconstruct_inverts_truncation_last :
    reconstructPacketNumber ((2 ^ 64 - 1) % 2 ^ (8 * packetNumberLen (2 ^ 64 - 1)))
        (2 ^ 64 - 1 - 2 ^ 31) (packetNumberLen (2 ^ 64 - 1)) = 2 ^ 64 - 1 ∧
      reconstructPacketNumber (255 % 2 ^ (8 * packetNumberLen 255)) 0 (packetNumberLen 255) = 255 ∧
      reconstructPacketNumber 7 (2 ^ 64 - 1) 1 ≡ 7 [MOD 2 ^ (8 * 1)] :=
  ⟨(@reconstruct_inverts_truncation (2 ^ 64 - 1) (2 ^ 64 - 1 - 2 ^ 31) (by decide) (by decide)).1
      (by decide) (by decide),
    (@reconstruct_inverts_truncation 255 0 (by decide) (by decide)).2.1 (by decide) (by decide),
    (@reconstruct_inverts_truncation 0 (2 ^ 64 - 1) (by decide) (by decide)).2.2 7 1
      (by decide) (by decide) (by decide)⟩

end Slt.Crypto
