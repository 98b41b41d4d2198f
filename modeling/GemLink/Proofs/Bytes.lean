import GemLink.Bytes
import Mathlib.Algebra.Group.Nat.Defs

/-!
Big-endian numbers in bytes: a number that fits the width it is written with is read back
(`toNat_ofNat`), and so are numbers of one width in a row (`groups_flatMap_ofNat`); bytes are
written again from the number they are (`ofNat_toNat`).
-/

namespace GemLink.Bytes

theorem foldl_eq_toNat (bs : Bytes) (n : Nat) :
    bs.foldl (fun n b => n * 256 + b.toNat) n = n * 256 ^ bs.length + toNat bs := by
  unfold toNat
  induction bs generalizing n with
  | nil => simp
  | cons b rest ih =>
    rw [List.foldl_cons, List.foldl_cons, ih, ih (0 * 256 + b.toNat), List.length_cons,
      Nat.pow_succ', Nat.add_mul, Nat.mul_assoc, Nat.zero_mul, Nat.zero_add, Nat.add_assoc]

theorem toNat_cons (b : UInt8) (bs : Bytes) :
    toNat (b :: bs) = b.toNat * 256 ^ bs.length + toNat bs := by
  have h := foldl_eq_toNat bs (0 * 256 + b.toNat)
  rw [Nat.zero_mul, Nat.zero_add] at h
  rw [← h, toNat, List.foldl_cons, Nat.zero_mul, Nat.zero_add]

/-- Of a number that is too large for its width the low bytes are read back. -/
theorem toNat_ofNat_mod (width n : Nat) : toNat (ofNat width n) = n % 256 ^ width := by
  induction width with
  | zero => simp [ofNat, toNat, Nat.mod_one]
  | succ width ih =>
    have hp : 2 ^ (8 * width) = 256 ^ width := by rw [Nat.pow_mul]
    have hm : n % 256 ^ (width + 1) = n % 256 ^ width + 256 ^ width * (n / 256 ^ width % 256) := by
      rw [Nat.pow_succ, Nat.mod_mul]
    rw [ofNat, toNat_cons, ih, length_ofNat, UInt8.toNat_ofNat', Nat.shiftRight_eq_div_pow, hp,
      hm, Nat.add_comm, Nat.mul_comm]

theorem toNat_ofNat {width n : Nat} (h : n < 256 ^ width) : toNat (ofNat width n) = n := by
  rw [toNat_ofNat_mod, Nat.mod_eq_of_lt h]

theorem toNat_lt (bs : Bytes) : toNat bs < 256 ^ bs.length := by
  induction bs with
  | nil => simp [toNat]
  | cons b rest ih =>
    have hb : b.toNat + 1 ≤ 256 := b.toNat_lt
    have hm : (b.toNat + 1) * 256 ^ rest.length ≤ 256 * 256 ^ rest.length :=
      Nat.mul_le_mul_right _ hb
    rw [toNat_cons, List.length_cons, Nat.pow_succ']
    rw [Nat.add_mul, Nat.one_mul] at hm
    omega

/-- Bytes of one length that are the same number are the same. -/
theorem toNat_inj {bs cs : Bytes} (hl : bs.length = cs.length) (h : toNat bs = toNat cs) :
    bs = cs := by
  induction bs generalizing cs with
  | nil => exact (List.length_eq_zero_iff.mp hl.symm).symm
  | cons b bs ih =>
    cases cs with
    | nil => exact absurd hl (Nat.succ_ne_zero _)
    | cons c cs =>
      have hr : bs.length = cs.length := Nat.succ.inj hl
      have hp : 0 < 256 ^ cs.length := Nat.pow_pos (by decide)
      have hlow : toNat bs < 256 ^ cs.length := hr ▸ toNat_lt bs
      rw [toNat_cons, toNat_cons, hr] at h
      have hm := congrArg (· % 256 ^ cs.length) h
      have hd := congrArg (· / 256 ^ cs.length) h
      simp only [Nat.mul_add_mod', Nat.mod_eq_of_lt hlow, Nat.mod_eq_of_lt (toNat_lt cs)] at hm
      simp only [Nat.mul_comm _ (256 ^ cs.length), Nat.mul_add_div hp, Nat.div_eq_of_lt hlow,
        Nat.div_eq_of_lt (toNat_lt cs), Nat.add_zero] at hd
      rw [UInt8.toNat_inj.mp hd, ih hr hm]

/-- A number is written in the width of its bytes with these bytes. -/
theorem ofNat_toNat (bs : Bytes) : ofNat bs.length (toNat bs) = bs :=
  toNat_inj (length_ofNat _ _) (toNat_ofNat (toNat_lt bs))

/-! ## Rows -/

variable {α : Type} (width : Nat) (f : α → Nat) (xs : List α)

theorem length_flatMap_ofNat :
    (xs.flatMap fun x => ofNat width (f x)).length = xs.length * width := by
  induction xs with
  | nil => simp
  | cons x rest ih =>
    rw [List.flatMap_cons, List.length_append, length_ofNat, ih, List.length_cons, Nat.succ_mul,
      Nat.add_comm]

theorem groups_flatMap_ofNat :
    groups width xs.length (xs.flatMap fun x => ofNat width (f x)) =
      xs.map fun x => ofNat width (f x) := by
  induction xs with
  | nil => rfl
  | cons x rest ih =>
    rw [List.flatMap_cons, List.length_cons, groups, List.take_left' (length_ofNat width _),
      List.drop_left' (length_ofNat width _), ih, List.map_cons]

end GemLink.Bytes
