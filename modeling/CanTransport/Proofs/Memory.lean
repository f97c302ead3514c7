import CanTransport.Kernel.Memory
import Mathlib.Algebra.Group.Nat.Defs
/-!
# Pointwise memory

Reads after writes, byte by byte, and the numbers that lie in several bytes. A number can be read
back from where it was written, as far as its bytes reach; everything else stays.
-/

namespace CanTransport.Memory

@[simp] theorem size_write (m : Memory) (a : Nat) (b : UInt8) : (m.write a b).size = m.size := by
  unfold write
  split <;> rfl

theorem read_write (m : Memory) (a x : Nat) (b : UInt8) :
    (m.write a b).read x = if a = x ∧ a < m.size then b else m.read x := by
  unfold write read
  by_cases ha : a < m.size
  · rw [if_pos ha]
    by_cases hx : a = x
    · subst hx
      simp [ha]
    · have hne : compare a x ≠ .eq := by
        intro h
        exact hx (Nat.compare_eq_eq.mp h)
      simp only [Std.TreeMap.getD_insert]
      rw [if_neg hne, if_neg (fun h => hx h.1)]
  · rw [if_neg ha, if_neg (fun h => ha h.2)]

theorem read_write_ne (m : Memory) {a x : Nat} (b : UInt8) (h : a ≠ x) :
    (m.write a b).read x = m.read x := by
  rw [read_write, if_neg (fun hx => h hx.1)]

theorem read_write_same (m : Memory) {a : Nat} (b : UInt8) (h : a < m.size) :
    (m.write a b).read a = b := by
  rw [read_write, if_pos ⟨rfl, h⟩]

@[simp] theorem size_writeBytes (m : Memory) (a : Nat) (bytes : List UInt8) :
    (m.writeBytes a bytes).size = m.size := by
  induction bytes generalizing m a with
  | nil => rfl
  | cons b bytes ih => rw [writeBytes, ih, size_write]

theorem read_writeBytes_of_outside (m : Memory) (a x : Nat) (bytes : List UInt8)
    (h : x < a ∨ a + bytes.length ≤ x) : (m.writeBytes a bytes).read x = m.read x := by
  induction bytes generalizing m a with
  | nil => rfl
  | cons b bytes ih =>
    rw [List.length_cons] at h
    rw [writeBytes, ih _ _ (by omega), read_write_ne _ _ (by omega)]

@[simp] theorem size_writeNumber (m : Memory) (a width n : Nat) :
    (m.writeNumber a width n).size = m.size := by
  induction width generalizing m a n with
  | zero => rfl
  | succ width ih => rw [writeNumber, ih, size_write]

theorem read_writeNumber_of_outside (m : Memory) (a x width n : Nat)
    (h : x < a ∨ a + width ≤ x) : (m.writeNumber a width n).read x = m.read x := by
  induction width generalizing m a n with
  | zero => rfl
  | succ width ih => rw [writeNumber, ih _ _ _ (by omega), read_write_ne _ _ (by omega)]

theorem readNumber_congr {m m' : Memory} {a width : Nat}
    (h : ∀ x, a ≤ x → x < a + width → m.read x = m'.read x) :
    m.readNumber a width = m'.readNumber a width := by
  induction width generalizing a with
  | zero => rfl
  | succ width ih =>
    rw [readNumber, readNumber, h a (by omega) (by omega),
      ih (fun x hx hlt => h x (by omega) (by omega))]

theorem readNumber_lt (m : Memory) (a width : Nat) : m.readNumber a width < 256 ^ width := by
  induction width generalizing a with
  | zero => exact Nat.one_pos
  | succ width ih =>
    have hbyte := (m.read a).toNat_lt
    have hrest := ih (a + 1)
    rw [readNumber, Nat.pow_succ]
    omega

theorem readNumber_writeNumber_of_disjoint (m : Memory) (a b width width' n : Nat)
    (h : b + width' ≤ a ∨ a + width ≤ b) :
    (m.writeNumber a width n).readNumber b width' = m.readNumber b width' := by
  apply readNumber_congr
  intro x hx hlt
  exact read_writeNumber_of_outside _ _ _ _ _ (by omega)

/-- The low bytes of a number come back; a field of `width` bytes holds no more. -/
theorem readNumber_writeNumber (m : Memory) (a width n : Nat) (h : a + width ≤ m.size) :
    (m.writeNumber a width n).readNumber a width = n % 256 ^ width := by
  induction width generalizing m a n with
  | zero => simp [readNumber, Nat.mod_one]
  | succ width ih =>
    have hhead : ((m.write a (UInt8.ofNat (n % 256))).writeNumber (a + 1) width (n / 256)).read a =
        UInt8.ofNat (n % 256) := by
      rw [read_writeNumber_of_outside _ _ _ _ _ (by omega), read_write_same _ _ (by omega)]
    have hbyte : (UInt8.ofNat (n % 256)).toNat = n % 256 := by simp
    rw [writeNumber, readNumber, hhead, hbyte, ih _ _ _ (by rw [size_write]; omega)]
    rw [Nat.pow_succ, Nat.mul_comm (256 ^ width) 256, Nat.mod_mul]

end CanTransport.Memory
