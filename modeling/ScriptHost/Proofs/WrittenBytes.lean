import ScriptHost.Client.Windows
import ScriptHost.Proofs.Binary
/-!
# Bytes in memory

What is written to memory is there afterwards, and the rest of the memory is as it was.  The bytes of
an integer element are those of the integer modulo a power of two.
-/

namespace ScriptHost

namespace ElementKind

/-! ## Writing -/

section Writing

variable {b : ByteArray} {pos q n : Nat} {xs : List UInt8}

theorem size_set (b : ByteArray) (x : UInt8) (h : pos < b.size) : (b.set pos x h).size = b.size :=
  Array.size_set h

theorem size_writeBytes (b : ByteArray) (pos : Nat) (xs : List UInt8) :
    (writeBytes b pos xs).size = b.size := by
  induction xs generalizing b pos with
  | nil => rfl
  | cons x xs ih =>
      rw [writeBytes, ih]
      split
      · exact size_set ..
      · rfl

theorem writeBytes_cons {x : UInt8} (h : pos < b.size) :
    writeBytes b pos (x :: xs) = writeBytes (b.set pos x h) (pos + 1) xs := by
  rw [writeBytes, dif_pos h]

theorem getElem?_set (b : ByteArray) (x : UInt8) (h : pos < b.size) (q : Nat) :
    (b.set pos x h).data[q]? = if pos = q then some x else b.data[q]? := by
  have hdata : (b.set pos x h).data = b.data.set pos x h := rfl
  rw [hdata, Array.getElem?_set]

/-- Bytes outside the ones that are written stay. -/
theorem getElem?_writeBytes_outside (h : q < pos ∨ pos + xs.length ≤ q) :
    (writeBytes b pos xs).data[q]? = b.data[q]? := by
  induction xs generalizing b pos with
  | nil => rfl
  | cons x xs ih =>
      rw [List.length_cons] at h
      rw [writeBytes, ih (by omega)]
      split
      · rw [getElem?_set, if_neg (by omega)]
      · rfl

/-- Bytes that are written within memory are there. -/
theorem getElem?_writeBytes_inside (hwithin : pos + xs.length ≤ b.size) (hq : q < xs.length) :
    (writeBytes b pos xs).data[pos + q]? = xs[q]? := by
  induction xs generalizing b pos q with
  | nil => exact absurd hq (Nat.not_lt_zero _)
  | cons x xs ih =>
      rw [List.length_cons] at hwithin hq
      rw [writeBytes_cons (by omega)]
      cases q with
      | zero =>
          rw [getElem?_writeBytes_outside (by omega), getElem?_set, if_pos (by omega)]
          rfl
      | succ q =>
          have hmore : pos + (q + 1) = pos + 1 + q := by omega
          rw [hmore, ih (by rw [size_set]; omega) (by omega)]
          rfl

/-- Writing within the first bytes of memory writes to these. -/
theorem extract_writeBytes (hwithin : pos + xs.length ≤ n) (hn : n ≤ b.size) :
    (writeBytes b pos xs).extract 0 n = writeBytes (b.extract 0 n) pos xs := by
  have hsize : (b.extract 0 n).size = n := by
    rw [ByteArray.size_extract]
    omega
  refine ByteArray.ext (Array.ext_getElem? fun q => ?_)
  have hextract : ∀ a : ByteArray, a.size = b.size →
      (a.extract 0 n).data[q]? = if q < n then a.data[q]? else none := by
    intro a ha
    have hadata : a.data.size = b.size := ha
    rw [ByteArray.data_extract, Array.getElem?_extract]
    split
    next h => rw [if_pos (by omega), Nat.zero_add]
    next h => rw [if_neg (by omega)]
  rw [hextract _ (size_writeBytes ..)]
  by_cases hin : pos ≤ q ∧ q < pos + xs.length
  · obtain ⟨i, rfl⟩ := Nat.exists_eq_add_of_le hin.1
    rw [if_pos (by omega), getElem?_writeBytes_inside (by omega) (by omega),
      getElem?_writeBytes_inside (by omega) (by omega)]
  · rw [getElem?_writeBytes_outside (by omega), getElem?_writeBytes_outside (by omega),
      hextract b rfl]

end Writing

/-! ## Elements -/

theorem length_littleBytes (n v : Nat) : (littleBytes n v).length = n := by
  induction n generalizing v with
  | zero => rfl
  | succ n ih => rw [littleBytes, List.length_cons, ih]

theorem getElem?_littleBytes {n q : Nat} (v : Nat) (hq : q < n) :
    (littleBytes n v)[q]? = some (UInt8.ofNat (v / 256 ^ q % 256)) := by
  induction n generalizing v q with
  | zero => exact absurd hq (Nat.not_lt_zero _)
  | succ n ih =>
      cases q with
      | zero => rw [littleBytes, Nat.pow_zero, Nat.div_one, List.getElem?_cons_zero]
      | succ q =>
          rw [littleBytes, List.getElem?_cons_succ, ih _ (Nat.lt_of_succ_lt_succ hq),
            Nat.div_div_eq_div_mul, Nat.pow_succ']

variable {k : ElementKind} {x : Value} {z : Int}

theorem length_encode (k : ElementKind) (x : Value) : (k.encode x).length = k.size :=
  length_littleBytes ..

theorem size_pos (k : ElementKind) : 0 < k.size := by
  cases k <;> decide

/-- The bits of a number where elements are integers modulo a power of two. -/
theorem bitsOfNumber_wraps (hk : k.wraps = true) {d : Float} (hd : Binary.trunc? d = some z) :
    k.bitsOfNumber d = wrapNat k.size z := by
  cases k with
  | uint8Clamped | float16 | float32 | float64 => cases hk
  | _ =>
      unfold bitsOfNumber
      rw [hd]
      rfl

theorem bitsOf_wraps (hk : k.wraps = true) (hx : x.integer? = some z) :
    k.bitsOf x = wrapNat k.size z := by
  cases x with
  | int n =>
      cases hx
      refine bitsOfNumber_wraps hk (Binary.ofInt_exact ?_).1
      have hlow := n.le_toInt
      have hhigh := n.toInt_lt
      omega
  | float d => exact bitsOfNumber_wraps hk hx
  | bigint n =>
      cases hx
      rfl
  | _ => cases hx

/-- The bytes of an integer element. -/
theorem getElem?_encode (hk : k.wraps = true) (hx : x.integer? = some z) {q : Nat} (hq : q < k.size) :
    (k.encode x)[q]? = some (wrappedByte k.size z q) := by
  rw [encode, getElem?_littleBytes _ hq, bitsOf_wraps hk hx]
  rfl

end ElementKind

end ScriptHost
