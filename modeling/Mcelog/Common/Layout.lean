import Mathlib.Data.List.Basic
import Mathlib.Data.Nat.Digits.Lemmas

/-!
# Records of numbers

A record in memory is a sequence of fields. Each field is a number in a fixed count of bytes,
the lowest byte first. A layout lists the fields of a type with their offsets.

* `leValue_take_leBytes`: the first bytes of a number are the number modulo a power of 256.
* `fieldAt_append_zeros`: zeros behind a record are read as no bytes are.
* `fieldAt_encode`: each field of a layout without gaps is read back, from a record that is cut
  off as far as its bytes are there.
-/

namespace Mcelog.Common

/-! ## Numbers -/

/-- The number of these bytes, the lowest first. -/
def leValue (bytes : List UInt8) : ℕ := Nat.ofDigits 256 (bytes.map UInt8.toNat)

/-- The lowest `width` bytes of a number. -/
def leBytes : (width : ℕ) → ℕ → List UInt8
  | 0, _ => []
  | width + 1, n => UInt8.ofNat n :: leBytes width (n / 256)

theorem leValue_cons (b : UInt8) (bytes : List UInt8) :
    leValue (b :: bytes) = b.toNat + 256 * leValue bytes := by
  rw [leValue, List.map_cons, Nat.ofDigits_cons]
  rfl

theorem leValue_append_zeros (bytes : List UInt8) (k : ℕ) :
    leValue (bytes ++ List.replicate k 0) = leValue bytes := by
  rw [leValue, List.map_append, List.map_replicate]
  exact Nat.ofDigits_append_replicate_zero _

theorem leValue_lt (bytes : List UInt8) : leValue bytes < 256 ^ bytes.length := by
  have hlt : ∀ n ∈ bytes.map UInt8.toNat, n < 256 := by
    intro n hn
    obtain ⟨b, -, rfl⟩ := List.mem_map.mp hn
    exact b.toNat_lt
  simpa [leValue] using Nat.ofDigits_lt_base_pow_length (by decide) hlt

@[simp] theorem length_leBytes (width n : ℕ) : (leBytes width n).length = width := by
  induction width generalizing n with
  | zero => rfl
  | succ width ih => rw [leBytes, List.length_cons, ih]

/-- The first bytes of a number are the number modulo a power of 256. -/
theorem leValue_take_leBytes (k width n : ℕ) :
    leValue ((leBytes width n).take k) = n % 256 ^ min k width := by
  induction width generalizing k n with
  | zero => simp [leBytes, leValue, Nat.mod_one]
  | succ width ih =>
    cases k with
    | zero => simp [leValue, Nat.mod_one]
    | succ k =>
      rw [leBytes, List.take_succ_cons, leValue_cons, ih, Nat.succ_min_succ, Nat.pow_succ',
        Nat.mod_mul, UInt8.toNat_ofNat']

/-! ## Fields -/

/-- The number in `width` bytes at `off`. Bytes that are not there count as 0. -/
def fieldAt (bytes : List UInt8) (off width : ℕ) : ℕ := leValue ((bytes.drop off).take width)

theorem fieldAt_lt (bytes : List UInt8) (off width : ℕ) :
    fieldAt bytes off width < 256 ^ width := by
  refine lt_of_lt_of_le (leValue_lt _) (Nat.pow_le_pow_right (by decide) ?_)
  exact List.length_take_le ..

/-- Zeros behind a record are read as no bytes are. -/
theorem fieldAt_append_zeros (bytes : List UInt8) (k off width : ℕ) :
    fieldAt (bytes ++ List.replicate k 0) off width = fieldAt bytes off width := by
  rw [fieldAt, fieldAt, List.drop_append, List.take_append, List.drop_replicate,
    List.take_replicate, leValue_append_zeros]

/-- A field of a type. -/
structure LayoutField (σ : Type*) where
  off : ℕ
  width : ℕ
  get : σ → ℕ

section

variable {σ : Type*} {layout : List (LayoutField σ)} {f : LayoutField σ} {k : ℕ}

/-- The record of a value. -/
def encode (layout : List (LayoutField σ)) (s : σ) : List UInt8 :=
  layout.flatMap fun f => leBytes f.width (f.get s)

/-- The fields follow each other from `k` on. -/
def Contiguous : ℕ → List (LayoutField σ) → Prop
  | _, [] => True
  | k, f :: fs => f.off = k ∧ Contiguous (k + f.width) fs

theorem Contiguous.le_off (h : Contiguous k layout) (hf : f ∈ layout) : k ≤ f.off := by
  induction layout generalizing k with
  | nil => exact absurd hf List.not_mem_nil
  | cons f' fs ih =>
    rcases List.mem_cons.mp hf with rfl | hf
    · exact h.1.ge
    · have := ih h.2 hf
      omega

/-- The record is as long as its fields. -/
theorem length_encode (layout : List (LayoutField σ)) (s : σ) :
    (encode layout s).length = (layout.map LayoutField.width).sum := by
  simp [encode, List.length_flatMap]

/-- A field of a record that is cut off after `n` bytes. -/
theorem fieldAt_encode (h : Contiguous k layout) (hf : f ∈ layout) (s : σ) (n : ℕ) :
    fieldAt ((encode layout s).take n) (f.off - k) f.width =
      f.get s % 256 ^ min (n - (f.off - k)) f.width := by
  induction layout generalizing k n with
  | nil => exact absurd hf List.not_mem_nil
  | cons f' fs ih =>
    have hcons : encode (f' :: fs) s = leBytes f'.width (f'.get s) ++ encode fs s :=
      List.flatMap_cons
    rw [hcons, List.take_append, length_leBytes]
    rcases List.mem_cons.mp hf with rfl | hf
    · rw [h.1, Nat.sub_self, Nat.sub_zero, fieldAt, List.drop_zero, List.take_append,
        List.take_take, List.length_take, length_leBytes]
      have hrest : ((encode fs s).take (n - f.width)).take (f.width - min n f.width) = [] := by
        rcases Nat.le_total n f.width with hle | hle
        · rw [Nat.sub_eq_zero_of_le hle, List.take_zero, List.take_nil]
        · rw [Nat.min_eq_right hle, Nat.sub_self, List.take_zero]
      rw [hrest, List.append_nil, leValue_take_leBytes]
      congr 2
      omega
    · have hle := h.2.le_off hf
      have hoff : f.off - k = f'.width + (f.off - (k + f'.width)) := by omega
      have hdrop : ((leBytes f'.width (f'.get s)).take n).drop (f.off - k) = [] := by
        rw [List.drop_eq_nil_iff, List.length_take, length_leBytes]
        omega
      have hsub : ((encode fs s).take (n - f'.width)).drop
          (f.off - k - ((leBytes f'.width (f'.get s)).take n).length) =
          ((encode fs s).take (n - f'.width)).drop (f.off - (k + f'.width)) := by
        rw [List.length_take, length_leBytes]
        rcases Nat.le_total n f'.width with hle | hle
        · rw [Nat.sub_eq_zero_of_le hle, List.take_zero, List.drop_nil, List.drop_nil]
        · congr 1
          omega
      rw [fieldAt, List.drop_append, hdrop, hsub, List.nil_append]
      show fieldAt ((encode fs s).take (n - f'.width)) (f.off - (k + f'.width)) f.width = _
      rw [ih h.2 hf]
      congr 3
      omega

end

end Mcelog.Common
